import Manet.Proofs.LinkOrigins
import Manet.Proofs.LinkRoutes
import Manet.Proofs.OwnInterfaces

/-!
# No route to this node

The computation of routes asks for local addresses only where it adds distant nodes. That the routes to
neighbours lead elsewhere rests on the tables: no link ends at this node, and no interface of another
node belongs to it, whatever MID and HELLO messages say (`Tables.LooksAway`). Every operation keeps this
(`Router.apply_isApart`) as long as the interfaces are the same and no packet comes from a local
address, and with it every route leads away (`Router.ReachableBy.not_isLocal`).
-/

namespace Manet

variable {F : Family}

/-- The route leads to other nodes than that with main address `node`, out of one of its interfaces. -/
structure Route.LeadsAway (node : Address F) (ifaces : List (Address F)) (route : Route F) : Prop where
  destination : route.destination ∉ node :: ifaces
  nextHop : route.nextHop ∉ node :: ifaces
  iface : route.iface ∈ ifaces

/-- No link ends at the node with main address `node` and the given interfaces, it is not its own
neighbour, and only its own interfaces belong to it. -/
structure Tables.LooksAway (node : Address F) (ifaces : List (Address F)) (T : Tables F) : Prop where
  links : ∀ l ∈ T.links, l.iface ∈ ifaces ∧ l.neighbour ∉ node :: ifaces
  neighbours : ∀ n ∈ T.neighbours, n.main ∉ node :: ifaces
  owners : ∀ t ∈ T.associations, t.main ∈ node :: ifaces → t.iface ∈ node :: ifaces

variable {node : Address F} {ifaces : List (Address F)}

namespace Tables.LooksAway

variable {T T' : Tables F}

theorem withAnsn (ansn : SeqNum) : LooksAway node ifaces (.withAnsn ansn) :=
  ⟨nofun, nofun, nofun⟩

/-- Links and associations may go, and neighbours stay. -/
theorem of_subset (h : T.LooksAway node ifaces) (hl : ∀ l ∈ T'.links, l ∈ T.links)
    (hn : T'.neighbours = T.neighbours) (ha : ∀ t ∈ T'.associations, t ∈ T.associations) :
    T'.LooksAway node ifaces :=
  ⟨fun l hm => h.links l (hl l hm), fun n hm => h.neighbours n (hn ▸ hm), fun t hm => h.owners t (ha t hm)⟩

theorem of_eq (h : T.LooksAway node ifaces) (hl : T'.links = T.links)
    (hn : T'.neighbours = T.neighbours) (ha : T'.associations = T.associations) :
    T'.LooksAway node ifaces :=
  h.of_subset (fun _ hm => hl ▸ hm) hn fun _ hm => ha ▸ hm

theorem drop (h : T.LooksAway node ifaces) (k : TupleKey F) : (T.drop k).LooksAway node ifaces := by
  cases k with
  | link => exact h.of_subset (fun _ hm => (Table.mem_erase.mp hm).1) rfl fun _ hm => hm
  | association => exact h.of_subset (fun _ hm => hm) rfl fun _ hm => (Table.mem_erase.mp hm).1
  | _ => exact h.of_eq rfl rfl rfl

theorem insertLink (h : T.LooksAway node ifaces) {l : LinkTuple F}
    (hl : l.iface ∈ ifaces ∧ l.neighbour ∉ node :: ifaces) (hlinks : T'.links = T.links.insert l)
    (hn : T'.neighbours = T.neighbours) (ha : T'.associations = T.associations) :
    T'.LooksAway node ifaces := by
  refine ⟨fun l' hm => ?_, hn ▸ h.neighbours, ha ▸ h.owners⟩
  rcases Table.mem_insert.mp (hlinks ▸ hm) with rfl | ⟨hm, -⟩
  · exact hl
  · exact h.links l' hm

theorem insertAssociation (h : T.LooksAway node ifaces) {t : AssociationTuple F}
    (ht : t.main ∉ node :: ifaces) (ha : T'.associations = T.associations.insert t)
    (hl : T'.links = T.links) (hn : T'.neighbours = T.neighbours) : T'.LooksAway node ifaces := by
  refine ⟨hl ▸ h.links, hn ▸ h.neighbours, fun t' hm hmain => ?_⟩
  rcases Table.mem_insert.mp (ha ▸ hm) with rfl | ⟨hm, -⟩
  · exact absurd hmain ht
  · exact h.owners t' hm hmain

/-- The interface of another node belongs to another node. -/
theorem mainAddress_not_mem (h : T.LooksAway node ifaces) {a : Address F} (ha : a ∉ node :: ifaces) :
    T.mainAddress a ∉ node :: ifaces := by
  unfold Tables.mainAddress
  cases ht : T.associations.get? a with
  | none => exact ha
  | some t =>
    obtain ⟨hm, rfl⟩ := Table.get?_eq_some_iff.mp ht
    exact fun hmain => ha (h.owners t hm hmain)

end Tables.LooksAway

/-! ## Routes -/

namespace RouteTable

variable {T : Tables F} {now : Time} {R : RouteTable F}

/-- All routes of the table lead away. -/
def LeadsAway (node : Address F) (ifaces : List (Address F)) (R : RouteTable F) : Prop :=
  ∀ route ∈ R, route.LeadsAway node ifaces

theorem LeadsAway.insert (hR : LeadsAway node ifaces R) {route : Route F}
    (h : route.LeadsAway node ifaces) : LeadsAway node ifaces (R.insert route) := fun other ho => by
  obtain rfl | ⟨ho, -⟩ := Table.mem_insert.mp ho
  · exact h
  · exact hR other ho

theorem LeadsAway.of_get? (hR : LeadsAway node ifaces R) {a : Address F} {route : Route F}
    (h : R.get? a = some route) : route.LeadsAway node ifaces :=
  hR route (Table.get?_eq_some_iff.mp h).1

/-- The routes to neighbours lead away because the links do. -/
theorem neighbourRoutes_leadsAway (h : T.LooksAway node ifaces) (now : Time) :
    LeadsAway node ifaces (neighbourRoutes T now) := by
  refine List.foldlRecOn (motive := LeadsAway node ifaces) _ _ (fun _ hr => absurd hr (Table.not_mem_empty _))
    fun R hR main hm => ?_
  obtain ⟨n, hn, rfl⟩ := List.mem_map.mp hm
  have hmain : n.main ∉ node :: ifaces := h.neighbours n (List.mem_filter.mp hn).1
  have hlink (l : LinkTuple F) (hl : l ∈ linksTo T now n.main) (a : Address F) (ha : a ∉ node :: ifaces) :
      (overLink l a).LeadsAway node ifaces :=
    have hends := h.links l (mem_linksTo.mp hl).1
    ⟨ha, hends.2, hends.1⟩
  have hlinks : LeadsAway node ifaces
      ((linksTo T now n.main).foldl (fun R l => R.insert (overLink l l.neighbour)) R) :=
    List.foldlRecOn (motive := LeadsAway node ifaces) _ _ hR fun R hR l hl =>
      hR.insert (hlink l hl _ (h.links l (mem_linksTo.mp hl).1).2)
  unfold addNeighbour
  dsimp only
  split
  · rename_i l hlast
    split
    · exact hlinks
    · exact hlinks.insert (hlink l (List.mem_of_getLast? hlast) _ hmain)
  · exact hlinks

theorem addTwoHop_leadsAway (hR : LeadsAway node ifaces R) (T : Tables F) (t : TwoHopTuple F) :
    LeadsAway node ifaces (addTwoHop T (node :: ifaces) R t) := by
  unfold addTwoHop
  split
  · exact hR
  · rename_i hfar
    split
    · exact hR
    · split
      · exact hR
      · rename_i via hvia
        split
        · exact hR
        · exact hR.insert ⟨fun hm => hfar (.inl hm), (hR.of_get? hvia).nextHop, (hR.of_get? hvia).iface⟩

theorem not_mem_of_lacksRoute {locals : List (Address F)} {a : Address F}
    (h : lacksRoute locals R a = true) : a ∉ locals :=
  (of_decide_eq_true h).1

theorem addAdvertised_leadsAway (hR : LeadsAway node ifaces R) (h : Nat) (t : TopologyTuple F) :
    LeadsAway node ifaces (addAdvertised (node :: ifaces) h R t) := by
  unfold addAdvertised
  split
  · rename_i hlacks
    split
    · exact hR
    · rename_i parent hparent
      split
      · exact hR.insert ⟨not_mem_of_lacksRoute hlacks, (hR.of_get? hparent).nextHop,
          (hR.of_get? hparent).iface⟩
      · exact hR
  · exact hR

theorem addInterface_leadsAway (hR : LeadsAway node ifaces R) (t : AssociationTuple F) :
    LeadsAway node ifaces (addInterface (node :: ifaces) R t) := by
  unfold addInterface
  split
  · rename_i hlacks
    split
    · exact hR
    · rename_i main hmain
      exact hR.insert ⟨not_mem_of_lacksRoute hlacks, (hR.of_get? hmain).nextHop, (hR.of_get? hmain).iface⟩
  · exact hR

/-- All routes that are computed from tables that look away lead away. -/
theorem compute_leadsAway (h : T.LooksAway node ifaces) (now : Time) :
    LeadsAway node ifaces (compute T (node :: ifaces) now) :=
  compute_induction_by_phase (neighbourRoutes_leadsAway h now) (fun _ t hR => addTwoHop_leadsAway hR T t)
    (fun h _ t hR => addAdvertised_leadsAway hR h t) fun _ t hR => addInterface_leadsAway hR t

end RouteTable

namespace Router

variable {provided : List (Interface F)} {now : Time} {r r' : Router F}

/-- While it runs, the router has the given interfaces. Its tables look away from it, and its routes lead
away. -/
structure IsApart (provided : List (Interface F)) (r : Router F) : Prop where
  interfaces : r.running = true → r.interfaces = provided
  tables : r.tables.LooksAway r.address (provided.map (·.address))
  routes : r.routes.LeadsAway r.address (provided.map (·.address))

/-- The same of a router that runs. -/
structure RunsApart (provided : List (Interface F)) (r : Router F) : Prop extends IsApart provided r where
  running : r.running = true

namespace RunsApart

theorem localAddresses_eq (h : r.RunsApart provided) :
    r.localAddresses = r.address :: provided.map (·.address) := by
  rw [localAddresses, h.interfaces h.running]

theorem not_isLocal_iff (h : r.RunsApart provided) {a : Address F} :
    r.isLocal a = false ↔ a ∉ r.address :: provided.map (·.address) := by
  rw [← h.localAddresses_eq]
  exact decide_eq_false_iff_not

theorem note (h : r.RunsApart provided) (n : Notice F) : (r.note n).RunsApart provided :=
  ⟨⟨h.interfaces, h.tables, h.routes⟩, h.running⟩

theorem onTables (h : r.RunsApart provided) (hn : SameNode r r')
    (ht : r'.tables.LooksAway r.address (provided.map (·.address))) (hroutes : r'.routes = r.routes) :
    r'.RunsApart provided where
  running := hn.running.trans h.running
  interfaces _ := hn.interfaces.trans (h.interfaces h.running)
  tables := hn.address ▸ ht
  routes := hn.address ▸ hroutes ▸ h.routes

theorem withStore (h : r.RunsApart provided) {s : Store F}
    (ht : s.tables.LooksAway r.address (provided.map (·.address))) :
    RunsApart provided { r with toStore := s } :=
  ⟨⟨h.interfaces, ht, h.routes⟩, h.running⟩

theorem updateRoutes (h : r.RunsApart provided) (now : Time) :
    (r.updateRoutes now).RunsApart provided := by
  obtain ⟨j, hj, -⟩ := r.updateRoutes_eq now
  rw [hj, h.localAddresses_eq]
  exact ⟨⟨h.interfaces, h.tables, RouteTable.compute_leadsAway h.tables now⟩, h.running⟩

/-- Deeds that concern neither links, nor neighbours, nor who owns an interface. -/
theorem does {ps : List Part} (hd : Does ps now r r') (hp : ∀ p ∈ ps, p.concernsLinks = false)
    (h : r.RunsApart provided) : r'.RunsApart provided := by
  refine hd.keep (P := RunsApart provided) (fun r d hpart _ h => ?_) h
  obtain ⟨hl, hneighbours, ha⟩ := d.onTables_links (hp _ hpart) r.tables
  have ht : (r.perform now d).tables.LooksAway r.address (provided.map (·.address)) := by
    rw [r.perform_tables]
    exact h.tables.of_eq hl hneighbours ha
  have hn := r.perform_sameNode now d
  cases d with
  | routes => exact h.updateRoutes now
  | enqueue m =>
    refine h.onTables hn ht ?_
    rcases r.enqueue_cases m with ⟨-, he⟩ | ⟨-, _, _, he⟩ <;> rw [perform, he]
  | _ => exact h.onTables hn ht rfl

/-- Only the node at the end of a link becomes a neighbour. -/
theorem rederives {main : Address F} (h : r.RunsApart provided) (hn : SameNode r r')
    (hd : Rederives main now r r') (hroutes : r'.routes = r.routes) : r'.RunsApart provided := by
  refine h.onTables hn ⟨hd.links ▸ h.tables.links, fun n hmem => ?_, hd.associations ▸ h.tables.owners⟩
    hroutes
  have hget : r'.tables.neighbours.get? n.main = some n := Table.get?_eq_some_iff.mpr ⟨hmem, rfl⟩
  have hstored : r'.tables.neighbours.contains n.main = true := by
    rw [Table.contains_eq_isSome, hget]
    rfl
  rcases hd.stored n.main hstored with ⟨rfl, l, hl, hmain⟩ | ⟨-, hold⟩
  · exact hmain ▸ h.tables.mainAddress_not_mem (h.tables.links l hl).2
  · rw [Table.contains_eq_isSome, Option.isSome_iff_exists] at hold
    obtain ⟨n', hn'⟩ := hold
    obtain ⟨hmem', hmain⟩ := Table.get?_eq_some_iff.mp hn'
    exact hmain ▸ h.tables.neighbours n' hmem'

/-! ### The neighbourhood -/

theorem loseNeighbour (h : r.RunsApart provided) (main : Address F) :
    (r.loseNeighbour main now).RunsApart provided := by
  obtain ⟨r', hd, he⟩ := (r.note (.neighbourLost main)).forgetNeighbour_eq main now
  have h' := (h.note (.neighbourLost main)).does hd (by decide)
  rw [Router.loseNeighbour, he]
  exact ⟨⟨h'.interfaces, h'.tables, h'.routes⟩, h'.running⟩

theorem checkNeighbour (h : r.RunsApart provided) {link : LinkTuple F}
    (hlink : ∃ l ∈ r.tables.links, l.neighbour = link.neighbour) (w : Option Willingness) :
    (r.checkNeighbour link w now).RunsApart provided := by
  have hd : Does _ now r (r.updateNeighbour link w now).2 := updateNeighbour_does r link w
  have hu : (r.updateNeighbour link w now).2.RunsApart provided :=
    h.rederives hd.sameNode (updateNeighbour_rederives hlink w) (hd.routes_eq (by decide))
  rw [checkNeighbour_eq]
  split
  · exact hu.loseNeighbour _
  · exact hu

/-- A link is written, and the neighbour at its end is checked. -/
theorem checkWritten {T : Tables F} {link : LinkTuple F} (h : r.RunsApart provided)
    (hlinks : r.tables.links = T.links.insert link) (w : Option Willingness) :
    (r.checkNeighbour link w now).RunsApart provided :=
  h.checkNeighbour ⟨link, hlinks ▸ Table.mem_insert.mpr (.inl rfl), rfl⟩ w

theorem linkRemoved (h : r.RunsApart provided) (link : LinkTuple F) :
    (r.linkRemoved link now).RunsApart provided := by
  let noted := r.note (.linkRemoved link.iface link.neighbour)
  have hd : Does _ now noted (noted.rederive (r.mainAddress link.neighbour) now) := rederive_does ..
  have hrederived : (noted.rederive (r.mainAddress link.neighbour) now).RunsApart provided :=
    (h.note _).rederives hd.sameNode (rederive_rederives noted _ now) (hd.routes_eq (by decide))
  rw [linkRemoved_eq]
  dsimp only
  split
  · exact hrederived.loseNeighbour _
  · exact hrederived.does (recompute_does _ now) (by decide)

theorem markLost (h : r.RunsApart provided) (hold : Time) (key : Address F × Address F) :
    (markLost hold now r key).RunsApart provided := by
  unfold Router.markLost
  split
  · exact h
  · rename_i link hlink
    let lost := { link with lostTime := some hold, time := hold }
    have htables : (r.onStore fun s =>
        (s.overwrite (.link lost)).rearm (.link lost.iface lost.neighbour) now).tables =
          r.tables.write (.link lost) := Store.tables_rearm ..
    have hends := h.tables.links link (Table.get?_eq_some_iff.mp hlink).1
    have hwritten : (r.onStore fun s =>
        (s.overwrite (.link lost)).rearm (.link lost.iface lost.neighbour) now).RunsApart provided := by
      refine h.withStore ?_
      rw [Store.tables_rearm]
      exact h.tables.insertLink (l := lost) hends rfl rfl rfl
    exact hwritten.checkWritten (congrArg Tables.links htables) none

theorem linkFailed (h : r.RunsApart provided) (destination : Address F) :
    (r.linkFailed destination now).RunsApart provided := by
  unfold Router.linkFailed
  split
  · split
    · exact h
    · exact List.foldlRecOn (motive := RunsApart provided) _ _ (h.note _) fun _ h key _ => h.markLost _ key
  · exact h

/-! ### Messages -/

theorem senseHello (h : r.RunsApart provided) {receiver sender : Address F}
    (hreceiver : receiver ∈ provided.map (·.address)) (hsender : r.isLocal sender = false)
    (validity : Time) (w : Willingness) (blocks : List (HelloBlock F)) :
    (r.senseHello validity w blocks receiver sender now).RunsApart provided := by
  have hfar := h.not_isLocal_iff.mp hsender
  unfold Router.senseHello
  dsimp only
  split
  · obtain ⟨hi, hn, -⟩ := senseLink_spec now validity r.params.neighbourHoldTime
      (blocks.filter fun b => receiver ∈ b.addresses) (freshLink receiver sender now validity)
    let noted := r.note (.linkAdded receiver sender)
    have hinserted (l : LinkTuple F) (hl : l.iface ∈ provided.map (·.address) ∧
        l.neighbour ∉ r.address :: provided.map (·.address)) :
        (noted.onStore (·.insert (.link l) now)).RunsApart provided := by
      refine (h.note (.linkAdded receiver sender)).withStore ?_
      rw [Store.tables_insert]
      exact h.tables.insertLink hl rfl rfl rfl
    refine (hinserted _ ?_).checkWritten (congrArg Tables.links (tables_onStore_insert noted ..)) _
    rw [hi, hn]
    exact ⟨hreceiver, hfar⟩
  · rename_i old hold
    obtain ⟨hi, hn, -⟩ := senseLink_spec now validity r.params.neighbourHoldTime
      (blocks.filter fun b => receiver ∈ b.addresses) old
    have hwritten : (r.onStore (·.overwrite (.link (senseLink now validity r.params.neighbourHoldTime
        (blocks.filter fun b => receiver ∈ b.addresses) old)))).RunsApart provided := by
      refine h.withStore (h.tables.insertLink ?_ rfl rfl rfl)
      rw [hi, hn]
      exact h.tables.links old (Table.get?_eq_some_iff.mp hold).1
    split
    · exact hwritten.checkWritten (T := r.tables) rfl _
    · exact hwritten

theorem recordWillingness (h : r.RunsApart provided) (originator : Address F) (w : Willingness) :
    (r.recordWillingness originator w).RunsApart provided := by
  unfold Router.recordWillingness
  split
  · exact h
  · rename_i n hn
    refine h.withStore ⟨h.tables.links, fun n' hm => ?_, h.tables.owners⟩
    rcases Table.mem_insert.mp hm with rfl | ⟨hm, -⟩
    · exact h.tables.neighbours n (Table.get?_eq_some_iff.mp hn).1
    · exact h.tables.neighbours n' hm

theorem processHello (h : r.RunsApart provided) {receiver sender : Address F}
    (hreceiver : receiver ∈ provided.map (·.address)) (hsender : r.isLocal sender = false)
    (originator : Address F) (validity : Time) (w : Willingness) (blocks : List (HelloBlock F)) :
    (r.processHello originator validity w blocks receiver sender now).RunsApart provided := by
  have hsensed : (r.senseHello validity w blocks receiver sender now).RunsApart provided :=
    h.senseHello hreceiver hsender validity w blocks
  have htwoHops := (hsensed.recordWillingness originator w).does
    (@recordTwoHops_does F now _ originator validity blocks) (by decide)
  have hrelays := htwoHops.does (@updateRelays_does F now _) (by decide)
  rw [processHello_eq]
  exact hrelays.does (recordSelector_does _ originator validity blocks) (by decide)

theorem recordInterface (h : r.RunsApart provided) {originator : Address F}
    (ho : r.isLocal originator = false) (validUntil : Time) (iface : Address F) :
    (recordInterface originator validUntil now r iface).RunsApart provided := by
  have ho := h.not_isLocal_iff.mp ho
  unfold Router.recordInterface
  split
  · exact h
  · split
    · rename_i t ht
      obtain ⟨-, hm⟩ := Option.filter_eq_some_iff.mp ht
      have hm : t.main = originator := of_decide_eq_true hm
      exact h.withStore (h.tables.insertAssociation (t := { t with time := some validUntil }) (hm ▸ ho)
        rfl rfl rfl)
    · refine (h.note (.interfaceLearned iface originator)).withStore ?_
      rw [Store.tables_insert]
      exact h.tables.insertAssociation (t := ⟨iface, originator, some validUntil⟩) ho rfl rfl rfl

theorem processMid (h : r.RunsApart provided) {originator : Address F}
    (ho : r.isLocal originator = false) (validity : Time) (interfaces : List (Address F))
    (sender : Address F) :
    (r.processMid originator validity interfaces sender now).RunsApart provided := by
  unfold Router.processMid
  split
  · have hv : now ≤ now + validity := Nat.le_add_right ..
    refine (List.foldlRecOn (motive := fun r' : Router F => SameNode r r' ∧ r'.RunsApart provided) _ _
      ⟨.refl r, h⟩ fun r' ⟨hn, h'⟩ iface _ => ?_).2
    have ho' : r'.isLocal originator = false := (hn.isLocal_eq _).trans ho
    exact ⟨hn.trans (recordInterface_does r' (ne_address_of_isLocal ho') hv iface).sameNode,
      h'.recordInterface ho' _ iface⟩
  · exact h

theorem process (h : r.RunsApart provided) {m : Message F} (ho : r.isLocal m.originator = false)
    {receiver sender : Address F} (hreceiver : receiver ∈ provided.map (·.address))
    (hsender : r.isLocal sender = false) : (r.process m receiver sender now).RunsApart provided := by
  unfold Router.process
  split
  · exact h.processHello hreceiver hsender _ _ _ _
  · exact h.does (processTc_does r _ _ _ _ _) (by decide)
  · exact h.processMid ho _ _ _
  · exact h.note _

theorem handleMessage (h : r.RunsApart provided) {receiver sender : Address F}
    (hreceiver : receiver ∈ provided.map (·.address)) (hsender : r.isLocal sender = false)
    (m : Message F) : (handleMessage receiver sender now r m).RunsApart provided := by
  unfold Router.handleMessage
  split
  · exact h
  · rename_i hm
    have ho : r.isLocal m.originator = false := Bool.eq_false_iff.mpr fun hl => hm (.inr hl)
    have hprocess : (r.process m receiver sender now).RunsApart provided := h.process ho hreceiver hsender
    split
    · split
      · exact h
      · exact h.does (forward_does r m receiver sender) (by decide)
    · dsimp only
      split
      · exact hprocess
      · exact hprocess.does (forward_does _ m receiver sender) (by decide)

/-! ### Operations -/

theorem packet (h : r.RunsApart provided) {sender : Address F} (hsender : r.isLocal sender = false)
    (id : InterfaceId) (datagram : Octets) :
    (r.apply now (.packet id sender datagram)).RunsApart provided := by
  rcases r.apply_packet_cases now id sender datagram with ⟨he, -⟩ | ⟨receiver, p, -, hid, -, he, -⟩
  · rw [he]
    exact h
  · obtain ⟨i, hi, rfl⟩ := Option.map_eq_some_iff.mp hid
    have hreceiver : i.address ∈ provided.map (·.address) :=
      List.mem_map_of_mem (h.interfaces h.running ▸ List.mem_of_find?_eq_some hi)
    let noted := r.note (.packetReceived p.seqno p.messages.length sender)
    have hmessages := List.foldlRecOn
      (motive := fun r' : Router F => SameNode noted r' ∧ r'.RunsApart provided) p.messages
      (Router.handleMessage i.address sender now) ⟨.refl noted, h.note _⟩ fun r' ⟨hn, h'⟩ m _ =>
        ⟨hn.trans (handleMessage_does r' m i.address sender).sameNode,
          h'.handleMessage hreceiver ((hn.isLocal_eq _).trans hsender) m⟩
    rw [he]
    exact hmessages.2.updateRoutes now

theorem expire (h : r.RunsApart provided) (key : TupleKey F) (generation : Nat) :
    (r.expire key generation now).RunsApart provided := by
  have hstore : { r with toStore := (r.toStore.expire key generation now).2 }.RunsApart provided := by
    refine h.withStore ?_
    have ht := r.toStore.tables_expire key generation now
    split at ht
    · exact ht.2 ▸ h.tables.drop key
    all_goals exact ht ▸ h.tables
  unfold Router.expire
  rcases hexpire : r.toStore.expire key generation now with ⟨expiry, store⟩
  rw [hexpire] at hstore
  dsimp only at hstore ⊢
  split
  · exact hstore
  · split
    · rename_i t hget
      split
      · exact hstore
      · have hlink : t ∈ store.tables.links := Tables.mem_links_of_get? hget
        exact hstore.checkNeighbour ⟨t, hlink, rfl⟩ none
    · exact hstore
  · exact hstore.linkRemoved _
  · exact (hstore.note _).does (recompute_does _ now) (by decide)
  · exact hstore.note _
  · exact hstore.updateRoutes now
  · exact hstore.updateRoutes now
  · exact hstore

end RunsApart

/-- Whatever the interfaces were, they are the given ones afterwards. -/
theorem refreshInterfaces_isApart (ht : r.tables.LooksAway r.address (provided.map (·.address)))
    (hroutes : r.routes.LeadsAway r.address (provided.map (·.address))) (now : Time) :
    (r.refreshInterfaces provided now).IsApart provided := by
  obtain ⟨r', hd, he⟩ := r.refreshInterfaces_does provided now
  have hassociations := r.get?_refreshInterfaces provided now
  rw [he] at hassociations ⊢
  have haddress := hd.sameNode.address
  refine ⟨fun _ => rfl, ?_, ?_⟩
  · show r'.tables.LooksAway r'.address _
    rw [haddress]
    refine ⟨hd.links_of_leavesLinks (by decide) ▸ ht.links,
      hd.neighbours_eq (by decide) ▸ ht.neighbours, fun t hm hmain => ?_⟩
    have hget : r'.tables.associations.get? t.iface = some t := Table.get?_eq_some_iff.mpr ⟨hm, rfl⟩
    have hget := (hassociations t.iface).symm.trans hget
    split at hget
    · rename_i hprovided
      exact List.mem_cons_of_mem _ hprovided
    · split at hget
      · cases hget
      · exact ht.owners t (Table.get?_eq_some_iff.mp hget).1 hmain
  · show r'.routes.LeadsAway r'.address _
    rw [haddress, hd.routes_eq (by decide)]
    exact hroutes

theorem start_isApart (h : r.IsApart provided) (now : Time) : (r.start provided now).IsApart provided := by
  unfold start
  split
  · exact h
  · have hrefreshed : ({ r with running := true }.refreshInterfaces provided now).IsApart provided :=
      refreshInterfaces_isApart (r := { r with running := true }) h.tables h.routes now
    exact ⟨hrefreshed.interfaces, hrefreshed.tables, hrefreshed.routes⟩

end Router

/-! ## Runs -/

/-- The host provides the given interfaces and no others, and brings no packet from a local address. -/
def Operation.IsProper (provided : List (Interface F)) (r : Router F) : Operation F → Prop
  | start interfaces | refresh interfaces => interfaces = provided
  | packet _ sender _ => r.isLocal sender = false
  | stop | timer _ | linkFailed _ => True

namespace Router

variable {provided : List (Interface F)} {now : Time} {r r' : Router F}

theorem apply_isApart (h : r.IsApart provided) {op : Operation F} (hop : op.IsProper provided r) :
    (r.apply now op).IsApart provided := by
  have hs := r.apply_step now op
  generalize hr' : r.apply now op = r' at hs
  cases hs with
  | idle => exact h
  | start interfaces =>
    obtain rfl : interfaces = provided := hop
    exact hr' ▸ start_isApart h now
  | refresh interfaces =>
    obtain rfl : interfaces = provided := hop
    exact hr' ▸ refreshInterfaces_isApart h.tables h.routes now
  | stop => exact ⟨nofun, .withAnsn _, fun _ hm => absurd hm (Table.not_mem_empty _)⟩
  | packet id sender datagram hr =>
    exact hr' ▸ (RunsApart.packet ⟨h, hr⟩ hop id datagram).toIsApart
  | linkFailed destination hr => exact hr' ▸ (RunsApart.linkFailed ⟨h, hr⟩ destination).toIsApart
  | hello _ _ hr hd | tc _ _ hr hd | mid _ _ hr hd =>
    have h' := RunsApart.does hd (by decide) ⟨⟨h.interfaces, h.tables, h.routes⟩, hr⟩
    exact ⟨h'.interfaces, h'.tables, h'.routes⟩
  | flush hr hd => exact (RunsApart.does hd (by decide) ⟨⟨h.interfaces, h.tables, h.routes⟩, hr⟩).toIsApart
  | expiry key generation hr =>
    rw [← hr', apply, handleTimer, if_pos hr]
    exact (RunsApart.expire ⟨h, hr⟩ key generation).toIsApart

theorem ReachableBy.isApart {t : Time} (h : r.ReachableBy (fun _ r op => op.IsProper provided r) t) :
    r.IsApart provided := by
  induction h with
  | create => exact ⟨nofun, .withAnsn _, fun _ hm => absurd hm (Table.not_mem_empty _)⟩
  | apply op _ _ hop ih => exact apply_isApart ih hop

/-- No route leads to this node. As long as the host provides the same interfaces and brings no packet
from a local address, whatever the packets say: while the router runs, all its addresses resolve to its
main address, no link or neighbour is one of them, and every route leads to another node through
another node, out of an interface of this one. -/
theorem ReachableBy.not_isLocal {t : Time} (h : r.ReachableBy (fun _ r op => op.IsProper provided r) t)
    (hr : r.running = true) :
    (∀ a, r.isLocal a = true → r.mainAddress a = r.address) ∧
      (∀ l ∈ r.tables.links, r.isLocal l.neighbour = false) ∧
      (∀ n ∈ r.tables.neighbours, r.isLocal n.main = false) ∧
      ∀ route ∈ r.routes, r.isLocal route.destination = false ∧ r.isLocal route.nextHop = false ∧
        ∃ i ∈ r.interfaces, i.address = route.iface := by
  have hapart : r.RunsApart provided := ⟨h.isApart, hr⟩
  refine ⟨fun a ha => (h.reachable.mainAddress_eq_iff hr a).mpr ha,
    fun l hl => hapart.not_isLocal_iff.mpr (hapart.tables.links l hl).2,
    fun n hn => hapart.not_isLocal_iff.mpr (hapart.tables.neighbours n hn), fun route hroute => ?_⟩
  have haway := hapart.routes route hroute
  refine ⟨hapart.not_isLocal_iff.mpr haway.destination, hapart.not_isLocal_iff.mpr haway.nextHop, ?_⟩
  rw [hapart.interfaces hr]
  exact List.mem_map.mp haway.iface

theorem not_isLocal_sample :
    sample.ReachableBy (fun _ r op => op.IsProper [⟨.number 0, sampleAddress⟩] r) 0 ∧
      sample.running = true ∧
      sample.routes.toList.map (·.destination) = [.ofNat 0x0a000002, .ofNat 0x0a000003] ∧
      (∀ a, sample.isLocal a = true → sample.mainAddress a = sample.address) ∧
      (∀ l ∈ sample.tables.links, sample.isLocal l.neighbour = false) ∧
      (∀ n ∈ sample.tables.neighbours, sample.isLocal n.main = false) ∧
      ∀ route ∈ sample.routes, sample.isLocal route.destination = false ∧
        sample.isLocal route.nextHop = false ∧ ∃ i ∈ sample.interfaces, i.address = route.iface := by
  have hsender : ((create sampleAddress {} (.cycle #[])).apply 0 sampleStart).isLocal
      (.ofNat 0x0a000002) = false := by decide +kernel
  have hrun : sample.ReachableBy (fun _ r op => op.IsProper [⟨.number 0, sampleAddress⟩] r) 0 :=
    .apply _ (.apply _ (.create _ _ _) (Nat.le_refl 0) rfl) (Nat.le_refl 0) hsender
  have hr : sample.running = true := by decide +kernel
  exact ⟨hrun, hr, by decide +kernel, hrun.not_isLocal hr⟩

end Router

end Manet
