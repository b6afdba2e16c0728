import Manet.Proofs.Deed

/-!
# The parts that each function of a router concerns

Every function of a running router is a sequence of fitting deeds (`Does`), and the list of parts
in each statement is what the function may change: `checkNeighbour_does` for what depends on a
link, `processHello_does`, `processTc_does` and `processMid_does` for the three kinds of messages,
`handleMessage_does` for any, `linkFailed_does` for reports of the link layer, `expire_does` for the
timers of tuples. Taking in messages is the only thing that refreshes tuples.
-/

namespace Manet.Router

variable {F : Family} {now : Time}

/-! ## Neighbours -/

/-- The parts that a lost or changed link concerns. -/
def upkeep : List Part :=
  [.journal, .loss, .neighbours, .dropped .twoHop, .dropped .selector, .relays, .routes]

theorem eraseAll_does {ps : List Part} {ks : List (TupleKey F)} (h : ∀ k ∈ ks, .dropped k.kind ∈ ps)
    (r : Router F) : Does ps now r (r.onStore (·.eraseAll ks)) := by
  induction ks generalizing r with
  | nil => exact .nothing r
  | cons k ks ih =>
    exact .step (.erase k) (h k List.mem_cons_self) trivial
      (ih (fun k' hk => h k' (List.mem_cons_of_mem _ hk)) _)

theorem storeNeighbour_eq (T : Tables F) (link : LinkTuple F) (w : Option Willingness)
    (symmetric : Bool) :
    storeNeighbour T link w symmetric =
      { T with neighbours := (storeNeighbour T link w symmetric).neighbours } := by
  unfold storeNeighbour
  dsimp only
  split <;> rfl

theorem kind_of_mem_twoHopKeys {T : Tables F} {p : TwoHopTuple F → Bool} {k : TupleKey F}
    (h : k ∈ twoHopKeys T p) : k.kind = .twoHop := by
  obtain ⟨t, -, rfl⟩ := List.mem_map.mp h
  rfl

theorem eraseTwoHops_does {ps : List Part} (hp : .dropped .twoHop ∈ ps) (p : TwoHopTuple F → Bool)
    (r : Router F) : Does ps now r (r.onStore fun s => s.eraseAll (twoHopKeys s.tables p)) := by
  have h : Does ps now r (r.onStore (·.eraseAll (twoHopKeys r.tables p))) :=
    eraseAll_does (fun _ hk => kind_of_mem_twoHopKeys hk ▸ hp) r
  unfold onStore at h ⊢
  exact h

theorem updateRelays_does (r : Router F) : Does [.journal, .relays] now r r.updateRelays := by
  unfold updateRelays
  dsimp only
  split
  · exact .nothing r
  · exact (((Does.nothing r).note _ (by decide)).tell _ .journal (by decide) rfl rfl).relays _ (by decide)

theorem updateNeighbour_does (r : Router F) (link : LinkTuple F) (w : Option Willingness) :
    Does [.journal, .neighbours, .dropped .twoHop] now r (r.updateNeighbour link w now).2 := by
  have hs : Does [.journal, .neighbours, .dropped .twoHop] now r
      (r.onTables fun T => storeNeighbour T link w
        (r.isReached (r.mainAddress link.neighbour) now)) := by
    simp only [onTables]
    rw [storeNeighbour_eq]
    exact (Does.nothing r).neighbours _ (by decide)
  unfold updateNeighbour
  dsimp only
  split
  · exact (hs.note _ (by decide)).trans (eraseTwoHops_does (by decide) _ _)
  · exact hs

/-- The loss of a neighbour is told once everything else is done. -/
theorem forgetNeighbour_eq (r : Router F) (main : Address F) (now : Time) :
    ∃ r', Does [.journal, .dropped .twoHop, .dropped .selector, .relays, .routes] now r r' ∧
      r.forgetNeighbour main now = r'.call (.neighbourLost main) := by
  refine ⟨_, ?_, rfl⟩
  refine Does.routes (.trans ?_ ((updateRelays_does _).mono (by decide))) (by decide)
  exact (eraseTwoHops_does (by decide) _ _).deed (.erase (.selector main)) (.dropped .selector)
    (by decide) rfl trivial

theorem forgetNeighbour_does (r : Router F) (main : Address F) :
    Does upkeep now r (r.forgetNeighbour main now) := by
  obtain ⟨r', hd, he⟩ := r.forgetNeighbour_eq main now
  rw [he]
  exact (hd.mono (by decide)).loss main (by decide)

theorem loseNeighbour_does (r : Router F) (main : Address F) :
    Does upkeep now r (r.loseNeighbour main now) :=
  ((Does.nothing r).note _ (by decide)).trans (forgetNeighbour_does _ main)

theorem checkNeighbour_does (r : Router F) (link : LinkTuple F) (w : Option Willingness) :
    Does upkeep now r (r.checkNeighbour link w now) := by
  have hu : Does upkeep now r (r.updateNeighbour link w now).2 :=
    (updateNeighbour_does r link w).mono (by decide)
  unfold checkNeighbour
  dsimp only
  split
  · exact hu.trans (loseNeighbour_does _ _)
  · exact hu

/-- What becomes of the neighbour `main` when a link to it has gone: it follows the first link that
is left, and goes with the last one. -/
def rederive (r : Router F) (main : Address F) (now : Time) : Router F :=
  match r.tables.links.toList.find? fun t => r.mainAddress t.neighbour = main with
  | some other => (r.updateNeighbour other none now).2
  | none => r.onTables fun T => { T with neighbours := T.neighbours.erase main }

theorem linkRemoved_eq (r : Router F) (link : LinkTuple F) (now : Time) :
    r.linkRemoved link now =
      let main := r.mainAddress link.neighbour
      let r' := (r.note (.linkRemoved link.iface link.neighbour)).rederive main now
      if r.hasSymmetricNeighbour main ∧ !r'.hasSymmetricNeighbour main then r'.loseNeighbour main now
      else r'.updateRelays.updateRoutes now := rfl

theorem rederive_does (r : Router F) (main : Address F) :
    Does [.journal, .neighbours, .dropped .twoHop] now r (r.rederive main now) := by
  unfold rederive
  split
  · exact updateNeighbour_does _ _ _
  · exact (Does.nothing r).neighbours _ (by decide)

theorem linkRemoved_does (r : Router F) (link : LinkTuple F) :
    Does upkeep now r (r.linkRemoved link now) := by
  rw [linkRemoved_eq]
  dsimp only
  have h : Does upkeep now r ((r.note (.linkRemoved link.iface link.neighbour)).rederive
      (r.mainAddress link.neighbour) now) :=
    ((Does.nothing r).note _ (by decide)).trans ((rederive_does _ _).mono (by decide))
  split
  · exact h.trans (loseNeighbour_does _ _)
  · exact (h.trans ((updateRelays_does _).mono (by decide))).routes (by decide)

/-! ## Reports of the link layer -/

theorem markLost_does (r : Router F) (key : Address F × Address F) :
    Does (.stored .link :: upkeep) now r (markLost (now + r.params.neighbourHoldTime) now r key) := by
  unfold markLost
  split
  · exact .nothing r
  · rename_i link hl
    have hk : (link.iface, link.neighbour) = key := (Table.get?_eq_some_iff.mp hl).2
    exact ((Does.nothing r).deed (.mark _) (.stored .link) (by decide) rfl
      ⟨link, hk ▸ hl, rfl⟩).trans ((checkNeighbour_does _ _ _).mono (by decide))

theorem linkFailed_of_not_running {r : Router F} (hr : r.running = false)
    (destination : Address F) : r.linkFailed destination now = r :=
  if_neg fun h => Bool.false_ne_true (hr.symm.trans h.1)

theorem linkFailed_does (r : Router F) (destination : Address F) :
    Does (.stored .link :: upkeep) now r (r.linkFailed destination now) := by
  unfold linkFailed
  split
  · split
    · exact .nothing r
    · refine ((Does.nothing r).note _ (by decide)).trans (.foldl fun r' hr key _ => ?_)
      rw [← hr.params]
      exact markLost_does r' key
  · exact .nothing r

/-! ## HELLO, TC and MID messages -/

/-- The parts that the sensing of a link concerns. -/
def sensing : List Part := .stored .link :: .refreshed .link :: upkeep

/-- The parts that a HELLO concerns. -/
def greeting : List Part :=
  .stored .twoHop :: .refreshed .twoHop :: .stored .selector :: .refreshed .selector :: sensing

theorem senseBlock_spec (now validity hold : Time) (link : LinkTuple F) (b : HelloBlock F) :
    let link' := senseBlock now validity hold link b
    link'.iface = link.iface ∧ link'.neighbour = link.neighbour ∧ link'.asymTime = link.asymTime ∧
      (link'.lostTime = none ∨ link'.lostTime = link.lostTime) := by
  unfold senseBlock
  cases b.code.link <;> simp

theorem foldl_senseBlock_spec (now validity hold : Time) (blocks : List (HelloBlock F))
    (link : LinkTuple F) :
    let link' := blocks.foldl (senseBlock now validity hold) link
    link'.iface = link.iface ∧ link'.neighbour = link.neighbour ∧ link'.asymTime = link.asymTime ∧
      (link'.lostTime = none ∨ link'.lostTime = link.lostTime) := by
  induction blocks generalizing link with
  | nil => exact ⟨rfl, rfl, rfl, .inr rfl⟩
  | cons b blocks ih =>
    obtain ⟨hi, hn, ha, hl⟩ := senseBlock_spec now validity hold link b
    obtain ⟨hi', hn', ha', hl'⟩ := ih (senseBlock now validity hold link b)
    refine ⟨hi'.trans hi, hn'.trans hn, ha'.trans ha, ?_⟩
    rcases hl' with h | h
    · exact .inl h
    · exact hl.imp h.trans h.trans

/-- What a HELLO makes of a link: it joins the same interfaces, it is not lost anew, and it is kept
for as long as the HELLO is valid. -/
theorem senseLink_spec (now validity hold : Time) (blocks : List (HelloBlock F))
    (link : LinkTuple F) :
    let link' := senseLink now validity hold blocks link
    link'.iface = link.iface ∧ link'.neighbour = link.neighbour ∧ now + validity ≤ link'.time ∧
      (link'.lostTime = none ∨ link'.lostTime = link.lostTime) := by
  obtain ⟨hi, hn, ha, hl⟩ :=
    foldl_senseBlock_spec now validity hold blocks { link with asymTime := now + validity }
  exact ⟨hi, hn, Nat.le_trans (Nat.le_of_eq ha.symm) (Nat.le_max_right ..), hl⟩

theorem senseHello_does (r : Router F) (validity : Time) (w : Willingness)
    (blocks : List (HelloBlock F)) (receiver sender : Address F) :
    Does sensing now r (r.senseHello validity w blocks receiver sender now) := by
  unfold senseHello
  dsimp only
  split
  · obtain ⟨-, -, ht, hl⟩ := senseLink_spec now validity r.params.neighbourHoldTime
      (blocks.filter fun b => receiver ∈ b.addresses) (freshLink receiver sender now validity)
    refine Does.trans (.deed (.note (.nothing r) _ (by decide)) (.insert (.link _)) (.stored .link)
      (by decide) rfl ⟨fun e he => ?_, fun _ h => TimedTuple.link.inj h ▸ hl.elim id id, trivial⟩)
      ((checkNeighbour_does _ _ _).mono (by decide))
    exact Option.some.inj he ▸ Nat.le_trans (Nat.le_add_right ..) ht
  · rename_i link hlink
    obtain ⟨hi, hn, -, hl⟩ := senseLink_spec now validity r.params.neighbourHoldTime
      (blocks.filter fun b => receiver ∈ b.addresses) link
    have hr : Does sensing now r (r.onStore (·.overwrite (.link (senseLink now validity
        r.params.neighbourHoldTime (blocks.filter fun b => receiver ∈ b.addresses) link)))) := by
      refine (Does.nothing r).deed (.refresh (.link _)) (.refreshed .link) (by decide) rfl
        ⟨.link link, ?_, hl⟩
      rw [TimedTuple.key, hi, hn]
      exact Tables.get?_key_link hlink
    split
    · exact hr.trans ((checkNeighbour_does _ _ _).mono (by decide))
    · exact hr

theorem recordWillingness_does (r : Router F) (originator : Address F) (w : Willingness) :
    Does [.neighbours] now r (r.recordWillingness originator w) := by
  unfold recordWillingness
  split
  · exact .nothing r
  · exact (Does.nothing r).neighbours _ (by decide)

theorem recordTwoHop_does (r : Router F) (originator : Address F) {validUntil : Time}
    (hv : now ≤ validUntil) (said : NeighbourType × Address F) :
    Does [.journal, .stored .twoHop, .refreshed .twoHop, .dropped .twoHop] now r
      (recordTwoHop originator validUntil now r said) := by
  unfold recordTwoHop
  dsimp only
  split
  · exact (Does.nothing r).deed (.erase (.twoHop _ _)) (.dropped .twoHop) (by decide) rfl trivial
  all_goals
    split
    · exact .nothing r
    · split
      · rename_i t ht
        exact (Does.nothing r).deed (.refresh (.twoHop _)) (.refreshed .twoHop) (by decide) rfl
          ⟨.twoHop t, Tables.get?_key_twoHop ht, trivial⟩
      · exact .deed (.note (.nothing r) _ (by decide)) (.insert (.twoHop _)) (.stored .twoHop)
          (by decide) rfl ⟨fun e he => Option.some.inj he ▸ hv, by rintro _ ⟨⟩, trivial⟩

theorem recordTwoHops_does (r : Router F) (originator : Address F) (validity : Time)
    (blocks : List (HelloBlock F)) :
    Does [.journal, .stored .twoHop, .refreshed .twoHop, .dropped .twoHop] now r
      (r.recordTwoHops originator validity blocks now) := by
  unfold recordTwoHops
  split
  · exact .foldl fun r _ said _ => recordTwoHop_does r originator (Nat.le_add_right ..) said
  · exact .nothing r

theorem recordSelector_does (r : Router F) (originator : Address F) (validity : Time)
    (blocks : List (HelloBlock F)) :
    Does [.journal, .stored .selector, .refreshed .selector] now r
      (r.recordSelector originator validity blocks now) := by
  unfold recordSelector
  split
  · split
    · rename_i t ht
      exact (Does.nothing r).deed (.refresh (.selector _)) (.refreshed .selector) (by decide) rfl
        ⟨.selector t, Tables.get?_key_selector ht, trivial⟩
    · exact .deed (.note (.nothing r) _ (by decide)) (.insert (.selector _)) (.stored .selector)
        (by decide) rfl ⟨fun e he => Option.some.inj he ▸ Nat.le_add_right .., by rintro _ ⟨⟩, trivial⟩
  · exact .nothing r

/-- What becomes of a router between the sensing of the link and the recording of the selector. -/
def recordNeighbourhood (r : Router F) (originator : Address F) (validity : Time) (w : Willingness)
    (blocks : List (HelloBlock F)) (now : Time) : Router F :=
  ((r.recordWillingness originator w).recordTwoHops originator validity blocks now).updateRelays

theorem recordNeighbourhood_does (r : Router F) (originator : Address F) (validity : Time)
    (w : Willingness) (blocks : List (HelloBlock F)) :
    Does [.journal, .neighbours, .stored .twoHop, .refreshed .twoHop, .dropped .twoHop, .relays] now r
      (r.recordNeighbourhood originator validity w blocks now) := by
  unfold recordNeighbourhood
  refine Does.trans ?_ ((updateRelays_does _).mono (by decide))
  exact ((recordWillingness_does _ _ _).mono (by decide)).trans
    ((recordTwoHops_does _ _ _ _).mono (by decide))

theorem processHello_eq (r : Router F) (originator : Address F) (validity : Time) (w : Willingness)
    (blocks : List (HelloBlock F)) (receiver sender : Address F) (now : Time) :
    r.processHello originator validity w blocks receiver sender now =
      ((r.senseHello validity w blocks receiver sender now).recordNeighbourhood originator validity w
        blocks now).recordSelector originator validity blocks now := rfl

theorem processHello_does (r : Router F) (originator : Address F) (validity : Time)
    (w : Willingness) (blocks : List (HelloBlock F)) (receiver sender : Address F) :
    Does greeting now r (r.processHello originator validity w blocks receiver sender now) := by
  rw [processHello_eq]
  refine Does.trans ?_ ((recordSelector_does _ _ _ _).mono (by decide))
  exact ((senseHello_does r _ _ _ _ _).mono (by decide)).trans
    ((recordNeighbourhood_does _ _ _ _ _).mono (by decide))

theorem kind_of_mem_advertisedKeys {T : Tables F} {originator : Address F} {p : TopologyTuple F → Bool}
    {k : TupleKey F} (h : k ∈ advertisedKeys T originator p) : k.kind = .topology := by
  obtain ⟨t, -, rfl⟩ := List.mem_map.mp h
  rfl

theorem recordAdvertised_does (r : Router F) (originator : Address F) (ansn : SeqNum)
    {validUntil : Time} (hv : now ≤ validUntil) (dest : Address F) :
    Does [.stored .topology, .refreshed .topology] now r
      (recordAdvertised originator ansn validUntil now r dest) := by
  unfold recordAdvertised
  split
  · rename_i t ht
    exact (Does.nothing r).deed (.refresh (.topology _)) (.refreshed .topology) (by decide) rfl
      ⟨.topology t, Tables.get?_key_topology ht, trivial⟩
  · exact (Does.nothing r).deed (.insert (.topology _)) (.stored .topology) (by decide) rfl
      ⟨fun e he => Option.some.inj he ▸ hv, nofun, trivial⟩

theorem processTc_does (r : Router F) (originator : Address F) (validity : Time) (ansn : SeqNum)
    (neighbours : List (Address F)) (sender : Address F) :
    Does [.journal, .stored .topology, .refreshed .topology, .dropped .topology] now r
      (r.processTc originator validity ansn neighbours sender now) := by
  unfold processTc
  split
  · split
    · exact (Does.nothing r).note _ (by decide)
    · have he : Does [.journal, .stored .topology, .refreshed .topology, .dropped .topology] now r
          (r.onStore (·.eraseAll (advertisedKeys r.tables originator fun t =>
            SeqNum.newer ansn t.seqno))) :=
        eraseAll_does (fun k hk => by rw [kind_of_mem_advertisedKeys hk]; decide) r
      unfold onStore at he ⊢
      exact he.trans (.foldl fun r _ dest _ =>
        (recordAdvertised_does r originator ansn (Nat.le_add_right ..) dest).mono (by decide))
  · exact .nothing r

theorem recordInterface_does (r : Router F) {originator : Address F}
    (ho : originator ≠ r.address) {validUntil : Time} (hv : now ≤ validUntil) (iface : Address F) :
    Does [.journal, .stored .association, .refreshed .association] now r
      (recordInterface originator validUntil now r iface) := by
  unfold recordInterface
  split
  · exact .nothing r
  · split
    · rename_i t ht
      obtain ⟨ht, hm⟩ := Option.filter_eq_some_iff.mp ht
      have hm : t.main = originator := of_decide_eq_true hm
      exact (Does.nothing r).deed (.refresh (.association _)) (.refreshed .association) (by decide)
        rfl ⟨.association t, Tables.get?_key_association ht, rfl, rfl, hm ▸ ho⟩
    · exact .deed (.note (.nothing r) _ (by decide)) (.insert (.association _))
        (.stored .association) (by decide) rfl
        ⟨fun e he => Option.some.inj he ▸ hv, by rintro _ ⟨⟩, by rintro ⟨⟩⟩

theorem processMid_does (r : Router F) {originator : Address F} (ho : originator ≠ r.address)
    (validity : Time) (interfaces : List (Address F)) (sender : Address F) :
    Does [.journal, .stored .association, .refreshed .association] now r
      (r.processMid originator validity interfaces sender now) := by
  unfold processMid
  split
  · exact .foldl fun r' hr iface _ =>
      recordInterface_does r' (hr.address ▸ ho) (Nat.le_add_right ..) iface
  · exact .nothing r

/-! ## Taking in messages -/

theorem originate_does (r : Router F) (validity : Time) (ttl : UInt8) (body : Body F) :
    Does [.queue] now r (r.originate validity ttl body) :=
  ((Does.nothing r).deed (.numberMessage _) .queue (by decide) rfl trivial).deed (.enqueue _) .queue
    (by decide) rfl trivial

theorem recordSeen_does (r : Router F) (m : Message F) (receiver : Address F)
    (retransmitted : Bool) :
    Does [.stored .duplicate, .refreshed .duplicate] now r
      (r.recordSeen m receiver retransmitted now) := by
  unfold recordSeen
  dsimp only
  split
  · rename_i t ht
    exact (Does.nothing r).deed (.refresh (.duplicate _)) (.refreshed .duplicate) (by decide) rfl
      ⟨.duplicate t, Tables.get?_key_duplicate ht, trivial⟩
  · exact (Does.nothing r).deed (.insert (.duplicate _)) (.stored .duplicate) (by decide) rfl
      ⟨fun e he => Option.some.inj he ▸ Nat.le_add_right .., nofun, trivial⟩

theorem forward_does (r : Router F) (m : Message F) (receiver sender : Address F) :
    Does [.journal, .queue, .stored .duplicate, .refreshed .duplicate] now r
      (r.forward m receiver sender now) := by
  unfold forward
  split
  · split
    · refine Does.trans ?_ ((recordSeen_does _ _ _ _).mono (by decide))
      exact ((Does.nothing r).note _ (by decide)).deed (.enqueue _) .queue (by decide) rfl trivial
    · exact (recordSeen_does _ _ _ _).mono (by decide)
  · exact .nothing r

/-- The parts that a message concerns before it is relayed. -/
def intake : List Part :=
  .stored .topology :: .refreshed .topology :: .dropped .topology :: .stored .association ::
    .refreshed .association :: greeting

/-- The parts that a message concerns. -/
def reception : List Part := .queue :: .stored .duplicate :: .refreshed .duplicate :: intake

theorem process_does (r : Router F) (m : Message F) (ho : m.originator ≠ r.address)
    (receiver sender : Address F) : Does intake now r (r.process m receiver sender now) := by
  unfold process
  split
  · exact (processHello_does _ _ _ _ _ _ _).mono (by decide)
  · exact (processTc_does _ _ _ _ _ _).mono (by decide)
  · exact (processMid_does _ ho _ _ _).mono (by decide)
  · exact (Does.nothing r).note _ (by decide)

/-- A router does not take in its own messages. -/
theorem originator_ne_of_not_local {r : Router F} {m : Message F}
    (hm : ¬ (m.ttl = 0 ∨ r.isLocal m.originator = true)) : m.originator ≠ r.address := by
  intro h
  apply hm
  right
  simp [isLocal, localAddresses, h]

theorem handleMessage_does (r : Router F) (m : Message F) (receiver sender : Address F) :
    Does reception now r (handleMessage receiver sender now r m) := by
  unfold handleMessage
  split
  · exact .nothing r
  · rename_i hm
    have ho := originator_ne_of_not_local hm
    split
    · split
      · exact .nothing r
      · exact (forward_does _ _ _ _).mono (by decide)
    · dsimp only
      split
      · exact (process_does _ _ ho _ _).mono (by decide)
      · exact ((process_does _ _ ho _ _).mono (by decide)).trans ((forward_does _ _ _ _).mono (by decide))

theorem handlePacket_of_not_running {r : Router F} (hr : r.running = false) (id : InterfaceId)
    (sender : Address F) (datagram : Octets) : r.handlePacket id sender datagram now = .ok r :=
  if_neg (hr ▸ Bool.false_ne_true)

theorem foldl_handleMessage_does (ms : List (Message F)) (r : Router F)
    (receiver sender : Address F) :
    Does reception now r (ms.foldl (handleMessage receiver sender now) r) :=
  .foldl fun r _ m _ => handleMessage_does r m receiver sender

/-- A datagram that is taken in concerns all parts, and the routes last. -/
theorem handlePacket_does {r r' : Router F} {id : InterfaceId} {sender : Address F}
    {datagram : Octets} (h : r.handlePacket id sender datagram now = .ok r') :
    Does reception now r r' := by
  unfold handlePacket at h
  split at h
  · split at h
    · cases h
    · split at h
      · cases h
      · cases h
        exact (((Does.nothing r).note _ (by decide)).trans
          (foldl_handleMessage_does _ _ _ _)).routes (by decide)
  · cases h
    exact .nothing r

/-! ## Emissions -/

theorem sendHello_does (r : Router F) : Does [.journal, .queue] now r (r.sendHello now) := by
  unfold sendHello
  dsimp only
  refine Does.trans (.note (.foldl fun r' _ main _ => ?_) _ (by decide))
    ((originate_does _ _ _ _).mono (by decide))
  exact (Does.nothing r').note _ (by decide)

theorem sendTc_does (r : Router F) : Does [.journal, .queue] now r r.sendTc :=
  ((Does.nothing r).note _ (by decide)).trans ((originate_does _ _ _ _).mono (by decide))

theorem sendMid_does (r : Router F) : Does [.journal, .queue] now r r.sendMid := by
  unfold sendMid
  split
  · exact .nothing r
  · exact ((Does.nothing r).note _ (by decide)).trans ((originate_does _ _ _ _).mono (by decide))

theorem sendPacket_does (r : Router F) (ms : List (Message F)) :
    Does [.journal, .sending, .queue] now r (r.sendPacket ms) := by
  unfold sendPacket
  dsimp only
  have hn : Does [.journal, .sending, .queue] now r { r with packetSeqno := r.packetSeqno.next } :=
    (Does.nothing r).deed (.numberPacket _) .queue (by decide) rfl trivial
  split
  · exact hn.trans (.foldl fun r' _ i _ => (Does.nothing r').send _ _ (by decide))
  · exact hn.tell _ .sending (by decide) rfl rfl

/-- A flush sends what waits, and then nothing waits. -/
theorem flush_does (r : Router F) :
    Does [.journal, .sending, .queue] now { r with outbound := [] } r.flush :=
  .foldl fun r' _ ms _ => sendPacket_does r' ms

theorem handleTimer_of_not_running {r : Router F} (hr : r.running = false) (timer : Timer F) :
    r.handleTimer timer now = r :=
  if_neg (hr ▸ Bool.false_ne_true)

/-! Each periodic timer emits, and then asks for itself anew. It does not matter to the emission that
the router still holds the handle of the timer that fired. -/

theorem handleTimer_hello_does {r : Router F} (hr : r.running = true) (now : Time) :
    ∃ r' delay entropy, Does [.journal, .queue] now { r with helloTimer := none } r' ∧
      r.handleTimer .hello now =
      { r' with
        journal := r'.journal.schedule delay .hello
        helloTimer := some r'.journal.nextHandle
        entropy } := by
  refine ⟨{ r.sendHello now with helloTimer := none },
    ((r.sendHello now).periodicDelay r.params.helloPeriod).1,
    ((r.sendHello now).periodicDelay r.params.helloPeriod).2.entropy,
    (sendHello_does r).periodic (fun _ => none) id id, ?_⟩
  rw [handleTimer, if_pos hr]
  rfl

theorem handleTimer_tc_does {r : Router F} (hr : r.running = true) (now : Time) :
    ∃ r' delay entropy, Does [.journal, .queue] now { r with tcTimer := none } r' ∧
      r.handleTimer .tc now =
      { r' with
        journal := r'.journal.schedule delay .tc
        tcTimer := some r'.journal.nextHandle
        entropy } := by
  let r' := if r.tables.selectors.isEmpty then r else r.sendTc
  have hs : Does [.journal, .queue] now r r' := by
    unfold r'
    split
    · exact .nothing r
    · exact sendTc_does r
  refine ⟨{ r' with tcTimer := none }, (r'.periodicDelay r'.params.tcInterval).1,
    (r'.periodicDelay r'.params.tcInterval).2.entropy, hs.periodic id (fun _ => none) id, ?_⟩
  rw [handleTimer, if_pos hr]
  rfl

theorem handleTimer_mid_does {r : Router F} (hr : r.running = true) (now : Time) :
    ∃ r' delay entropy, Does [.journal, .queue] now { r with midTimer := none } r' ∧
      r.handleTimer .mid now =
      { r' with
        journal := r'.journal.schedule delay .mid
        midTimer := some r'.journal.nextHandle
        entropy } := by
  refine ⟨{ r.sendMid with midTimer := none }, (r.sendMid.periodicDelay r.params.midInterval).1,
    (r.sendMid.periodicDelay r.params.midInterval).2.entropy,
    (sendMid_does r).periodic id id (fun _ => none), ?_⟩
  rw [handleTimer, if_pos hr]
  rfl

/-! ## Timers of tuples -/

/-- What follows once the store has answered the timer of a tuple. -/
theorem expire_does (r : Router F) (key : TupleKey F) (generation : Nat) :
    Does upkeep now { r with toStore := (r.toStore.expire key generation now).2 }
      (r.expire key generation now) := by
  unfold expire
  rcases r.toStore.expire key generation now with ⟨expiry, store⟩
  dsimp only
  split
  · exact .nothing _
  · split
    · split
      · exact .nothing _
      · exact checkNeighbour_does _ _ _
    · exact .nothing _
  · exact linkRemoved_does _ _
  · exact (((Does.nothing _).note _ (by decide)).trans
      ((updateRelays_does _).mono (by decide))).routes (by decide)
  · exact (Does.nothing _).note _ (by decide)
  · exact (Does.nothing _).routes (by decide)
  · exact (Does.nothing _).routes (by decide)
  · exact .nothing _

/-! ## Interfaces -/

/-- The associations of the interfaces come and go, and then the interfaces are others. -/
theorem refreshInterfaces_does (r : Router F) (provided : List (Interface F)) (now : Time) :
    ∃ r', Does [.lasting, .dropped .association] now r r' ∧
      r.refreshInterfaces provided now = { r' with interfaces := provided } := by
  refine ⟨_, ?_, rfl⟩
  refine Does.trans (eraseAll_does (fun k hk => ?_) r) (.foldl fun r' _ i _ => ?_)
  · obtain ⟨a, -, rfl⟩ := List.mem_map.mp hk
    exact List.mem_cons_of_mem _ List.mem_cons_self
  · exact (Does.nothing r').deed (.insert (.association _)) .lasting (by decide) rfl
      ⟨nofun, nofun, fun _ => rfl⟩

/-! ## Starting and stopping -/

theorem start_of_running {r : Router F} (hr : r.running = true) (provided : List (Interface F)) :
    r.start provided now = r :=
  if_pos hr

/-- A start takes the interfaces and asks for the periodic timers. -/
theorem start_does {r : Router F} (hr : r.running = false) (provided : List (Interface F))
    (now : Time) :
    ∃ r' delay, Does [.lasting, .dropped .association] now { r with running := true } r' ∧
      r.start provided now =
        { r' with
          interfaces := provided
          journal := (((r'.journal.schedule delay .hello).schedule delay .tc).schedule delay
            .mid).note (.started provided.length)
          helloTimer := some (r'.journal.issued + 1)
          tcTimer := some (r'.journal.issued + 2)
          midTimer := some (r'.journal.issued + 3) } := by
  obtain ⟨r', hd, he⟩ := { r with running := true }.refreshInterfaces_does provided now
  refine ⟨r', r'.params.helloPeriod, hd, ?_⟩
  rw [start, if_neg (by rw [hr]; exact Bool.false_ne_true)]
  dsimp only
  rw [he]
  rfl

theorem foldl_call_eq {α : Type} (c : α → Call F) (l : List α) (r : Router F) :
    l.foldl (fun r x => r.call (c x)) r =
      { r with journal := l.foldl (fun j x => j.call (c x)) r.journal } := by
  induction l generalizing r with
  | nil => rfl
  | cons x l ih => rw [List.foldl_cons, ih, List.foldl_cons]; rfl

theorem stop_of_not_running {r : Router F} (hr : r.running = false) : r.stop = r :=
  if_neg (hr ▸ Bool.false_ne_true)

/-- A stop cancels all timers, withdraws all routes, and leaves nothing else behind. -/
theorem stop_eq {r : Router F} (hr : r.running = true) :
    r.stop =
      { r with
        tables := .withAnsn r.tables.ansn
        book := ∅
        journal := (((r.journal.cancelAll r.ownTimers).cancelAll
          (r.book.armed.toList.map (·.handle))).withdrawAll r.routes.toList).note .stopped
        running := false
        helloTimer := none
        tcTimer := none
        midTimer := none
        flushTimer := none
        outbound := []
        routes := ∅ } := by
  rw [stop, if_pos hr]
  dsimp only
  rw [foldl_call_eq, foldl_call_eq, Journal.cancelAll, Journal.cancelAll, Journal.withdrawAll,
    List.foldl_map]
  rfl

theorem stop_running (r : Router F) : r.stop.running = false := by
  cases hr : r.running with
  | true => rw [stop_eq hr]
  | false => rw [stop_of_not_running hr, hr]

end Manet.Router
