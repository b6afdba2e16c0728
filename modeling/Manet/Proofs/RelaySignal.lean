import Manet.Proofs.Emissions
import Manet.Proofs.OwnInterfaces
import Manet.Proofs.RepeatedHello

/-!
# Selected relays learn of it

A node tells its relays that it selected them by the code under which its HELLO lists their
interfaces. `signals_selection` follows a HELLO from the tables of the node that composes it to those
of a node that takes it in: the latter stores the former as a selector iff one of its addresses was at
the other end of a live link and resolved to a selected relay. A loss that is noticed while the link is
sensed may drop the selector first; it is stored again afterwards.
-/

namespace Manet

variable {F : Family}

namespace Router

variable {now : Time} {r r' : Router F} {originator receiver sender : Address F}

/-! ## Taking in a HELLO -/

/-- Whether a HELLO lists this node as relay is looked at last, and what was done before brings no
selector. -/
theorem recordNeighbourhood_sensed_does (r : Router F) (originator : Address F) (validity : Time)
    (w : Willingness) (blocks : List (HelloBlock F)) (receiver sender : Address F) (now : Time) :
    Does (.stored .twoHop :: .refreshed .twoHop :: sensing) now r
      ((r.senseHello validity w blocks receiver sender now).recordNeighbourhood originator validity w
        blocks now) :=
  ((senseHello_does r _ _ _ _ _).mono (by decide)).trans
    ((recordNeighbourhood_does _ _ _ _ _).mono (by decide))

/-- A HELLO that lists this node as relay stores its originator as selector, whatever else it says. -/
theorem processHello_selector (validity : Time) (w : Willingness) {blocks : List (HelloBlock F)}
    (h : r.isSelectedBy blocks = true) :
    (r.processHello originator validity w blocks receiver sender now).tables.selectors.get? originator =
      some ⟨originator, now + validity⟩ := by
  have hd := r.recordNeighbourhood_sensed_does originator validity w blocks receiver sender now
  rw [processHello_eq]
  refine recordSelector_get? _ originator validity now ?_
  rw [isSelectedBy_congr hd.sameNode.address (hd.associations_eq (by decide)), h]

/-- Any other HELLO stores no selector, and refreshes none. -/
theorem get?_of_processHello {validity : Time} {w : Willingness} {blocks : List (HelloBlock F)}
    (h : r.isSelectedBy blocks = false) {main : Address F} {t : SelectorTuple F}
    (ht : (r.processHello originator validity w blocks receiver sender now).tables.selectors.get? main =
      some t) : r.tables.selectors.get? main = some t := by
  have hd := r.recordNeighbourhood_sensed_does originator validity w blocks receiver sender now
  rw [processHello_eq] at ht
  generalize (r.senseHello validity w blocks receiver sender now).recordNeighbourhood originator validity
    w blocks now = r' at hd ht
  have hunselected : r'.isSelectedBy blocks = false := by
    rw [isSelectedBy_congr hd.sameNode.address (hd.associations_eq (by decide)), h]
  rw [recordSelector, if_neg (hunselected ▸ Bool.false_ne_true)] at ht
  have hp : ∀ p ∈ .stored .twoHop :: .refreshed .twoHop :: sensing, p.brings .selector = false := by
    decide
  have hget : r.tables.get? (.selector main) = some (.selector t) :=
    hd.get?_of_get? (k := .selector main) hp (congrArg (Option.map _) ht)
  exact Option.map_injective (fun _ _ => TimedTuple.selector.inj) hget

/-! ## From one node to another -/

/-- Whether the node has a live link to an address of `other` that belongs to a relay of its own. -/
def selects (r : Router F) (now : Time) (other : Router F) : Bool :=
  r.tables.links.toList.any fun l =>
    l.isAlive now ∧ other.isLocal l.neighbour ∧ r.tables.mprs.contains (r.mainAddress l.neighbour)

theorem selects_iff {other : Router F} :
    r.selects now other = true ↔
      ∃ l ∈ r.tables.links, l.isAlive now = true ∧ other.isLocal l.neighbour = true ∧
        r.tables.mprs.contains (r.mainAddress l.neighbour) = true := by
  simp [selects, Table.mem_toList]

/-- A node that knows its own interfaces finds itself in a HELLO as relay iff the sender selected it. -/
theorem KnowsItself.isSelectedBy_eq (h : r.KnowsItself) (hr : r.running = true) (sender : Router F)
    (t : Time) : r.isSelectedBy (sender.helloBlocks t) = sender.selects t r := by
  rw [Bool.eq_iff_iff, selects_iff]
  simp only [isSelectedBy, List.any_eq_true, decide_eq_true_eq, Prod.exists,
    h.mainAddress_eq_iff hr]
  constructor
  · rintro ⟨_, a, hsaid, rfl, hlocal⟩
    obtain ⟨l, hl, halive, rfl, hmpr⟩ := mem_statements_mpr.mp hsaid
    exact ⟨l, hl, halive, hlocal, hmpr⟩
  · rintro ⟨l, hl, halive, hlocal, hmpr⟩
    exact ⟨.mpr, l.neighbour, mem_statements_mpr.mpr ⟨l, hl, halive, rfl, hmpr⟩, rfl, hlocal⟩

/-- Where a HELLO stands among the messages of a packet is no matter: the node that takes it in knows
its interfaces, and is the same. -/
theorem mem_receptions_of_decode {s : Time} (h : r.Reachable s) (hr : r.running = true)
    {id : InterfaceId} {datagram : Octets} {p : Packet F} (hid : r.interfaceAddress? id = some receiver)
    (hp : Packet.decode datagram = .ok p) (now : Time) (sender : Address F) :
    (∀ m ∈ p.messages, ∃ x ∈ Operation.receptions now r (.packet id sender datagram), x.message = m) ∧
      ∀ x ∈ Operation.receptions now r (.packet id sender datagram),
        x.router.KnowsItself ∧ SameNode r x.router := by
  rw [Operation.receptions, hr, hid, hp]
  refine ⟨fun m hm => exists_mem_receive hm, fun x hx => ?_⟩
  have hnoted : (r.note (.packetReceived p.seqno p.messages.length sender)).KnowsItself :=
    ⟨h.knowsItself.own, h.knowsItself.present⟩
  refine router_of_mem_receive (P := fun r' => r'.KnowsItself ∧ SameNode r r')
    (fun r' m h' => ⟨handleMessage_knowsItself h'.1 m receiver sender, ?_⟩) hx ⟨hnoted, ?_⟩
  · exact h'.2.trans (handleMessage_does r' m receiver sender).sameNode
  · exact ((Does.nothing r).note _ List.mem_cons_self : Does [.journal] now r _).sameNode

/-- What the node `r` composes when its HELLO is due, read from any packet of messages that wait, stores
`r` as selector at a node that takes it in iff `r` selected that node when it composed the HELLO. If it
did not, the selector stays as it was or goes. -/
theorem signals_selection {r r' other : Router F} {t t' s now : Time} {p : Packet F} {octets : Octets}
    {id : InterfaceId} {receiver sender : Address F}
    (hr : r.running = true) (ho : other.Reachable s) (hrunning : other.running = true)
    (hforeign : other.isLocal r.address = false) (hr' : r'.Reachable t')
    (hm : r.composedHello t ∈ p.messages) (hp : ∀ m ∈ p.messages, m ∈ r'.outbound)
    (he : p.encode = .ok octets) (hid : other.interfaceAddress? id = some receiver) :
    let m := r.composedHello t
    let due : SelectorTuple F := ⟨r.address, now + m.validity.duration⟩
    let receptions := Operation.receptions now other (.packet id sender octets)
    Operation.queued t r (.timer .hello) = [m] ∧
      (∃ x ∈ receptions, x.message = m) ∧
      ∀ x ∈ receptions, x.message = m → x.router.tables.duplicates.get? m.key = none →
        let before := x.router.tables.selectors.get? r.address
        let after := (x.after now).tables.selectors.get? r.address
        (r.selects t other = true → after = some due) ∧
        (r.selects t other = false → ∀ held, after = some held → before = some held) ∧
        (before ≠ some due → (after = some due ↔ r.selects t other = true)) := by
  intro m due receptions
  have hdecode : Packet.decode octets = .ok p :=
    hr'.decode_encode (List.ne_nil_of_mem hm) hp he
  obtain ⟨hall, hrouters⟩ := mem_receptions_of_decode ho hrunning hid hdecode now sender
  refine ⟨queued_hello hr t, hall _ hm, fun x hx hxm hnew => ?_⟩
  obtain ⟨hknows, hsame⟩ := hrouters x hx
  intro before after
  have hselected : x.router.isSelectedBy (r.helloBlocks t) = r.selects t other := by
    rw [hknows.isSelectedBy_eq (hsame.running.trans hrunning)]
    simp only [selects, hsame.isLocal_eq]
  have hafter : x.after now =
      x.router.processHello r.address m.validity.duration r.params.willingness (r.helloBlocks t)
        x.receiver x.sender now := by
    rw [Reception.after, hxm, handleMessage_hello_eq x.router _ _ _ (m := m) rfl, if_neg, if_neg]
    · rfl
    · rw [show x.router.tables.duplicates.get? (m.originator, m.seqno) = none from hnew]
      exact Bool.false_ne_true
    · rintro (httl | hlocal)
      · cases httl
      · rw [hsame.isLocal_eq] at hlocal
        exact Bool.false_ne_true (hforeign.symm.trans hlocal)
  have hyes (h : r.selects t other = true) : after = some due := by
    unfold after
    rw [hafter]
    exact processHello_selector _ _ (hselected.trans h)
  have hno (h : r.selects t other = false) (held : SelectorTuple F) (hheld : after = some held) :
      before = some held := by
    unfold after at hheld
    rw [hafter] at hheld
    exact get?_of_processHello (hselected.trans h) hheld
  refine ⟨hyes, hno, fun hbefore => ⟨fun hdue => ?_, hyes⟩⟩
  cases hs : r.selects t other with
  | true => rfl
  | false => exact absurd (hno hs due hdue) hbefore

/-- The neighbour 10.0.0.2 of the node, which it selected as relay. -/
def sampleNeighbour : Router .ipv4 :=
  (create (.ofNat 0x0a000002) {} (.cycle #[])).apply 0 (.start [⟨.number 0, .ofNat 0x0a000002⟩])

/-- A packet with the next HELLO of the node. -/
def sampleReply : Packet .ipv4 := ⟨1, [sample.composedHello 1]⟩

/-- How the neighbour takes it in. -/
def sampleReplyReceptions : List (Reception .ipv4) :=
  Operation.receptions 2 sampleNeighbour (.packet (.number 0) sampleAddress sampleReply.toOctets)

theorem signals_selection_sample :
    sample.running = true ∧ sampleNeighbour.running = true ∧
      sampleNeighbour.isLocal sample.address = false ∧ sampleReply.encode = .ok sampleReply.toOctets ∧
      sample.selects 1 sampleNeighbour = true ∧
      ∃ x ∈ sampleReplyReceptions, x.message = sample.composedHello 1 ∧
        (x.after 2).tables.selectors.get? sample.address = some ⟨sample.address, 2 + .ofSeconds 6⟩ := by
  have hr : sample.running = true := by decide +kernel
  have ho : sampleNeighbour.Reachable 0 := .apply _ (.create _ _ _) (Nat.le_refl 0)
  have hrunning : sampleNeighbour.running = true := by decide +kernel
  have hforeign : sampleNeighbour.isLocal sample.address = false := by decide +kernel
  have hr' : (sample.apply 1 (.timer .hello)).Reachable 1 := .apply _ sample_reachable (Nat.zero_le 1)
  have hp : ∀ m ∈ sampleReply.messages, m ∈ (sample.apply 1 (.timer .hello)).outbound := by
    decide +kernel
  have he : sampleReply.encode = .ok sampleReply.toOctets := if_pos (by decide +kernel)
  have hid : sampleNeighbour.interfaceAddress? (.number 0) = some (.ofNat 0x0a000002) := by
    decide +kernel
  have hselects : sample.selects 1 sampleNeighbour = true := by decide +kernel
  have hnew : ∀ x ∈ sampleReplyReceptions,
      x.router.tables.duplicates.get? (sample.composedHello 1).key = none := by decide +kernel
  have hvalidity : (sample.composedHello 1).validity.duration = .ofSeconds 6 := by decide +kernel
  obtain ⟨-, ⟨x, hx, hm⟩, hsignals⟩ :=
    @signals_selection .ipv4 _ _ _ 1 1 0 2 _ _ (.number 0) _ sampleAddress hr ho hrunning hforeign hr'
      List.mem_cons_self hp he hid
  have hafter := (hsignals x hx hm (hnew x hx)).1 hselects
  rw [hvalidity] at hafter
  exact ⟨hr, hrunning, hforeign, he, hselects, x, hx, hm, hafter⟩

end Router

end Manet
