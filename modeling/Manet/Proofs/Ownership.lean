import Manet.Proofs.LinkEnds

/-!
# Owners of interfaces

MID messages, associations that end and the operator decide which node an interface belongs to. An
operation reassigns an interface (`Operation.Reassigns`) if it gives it another owner or claims it
for one. Whatever else a router does, its neighbours follow its links: an operation strands a
neighbour or makes a link idle only where a link ends at an interface that it reassigns
(`Router.apply_calm`).
-/

namespace Manet

variable {F : Family}

namespace Router

variable {P : Address F → Prop} {now : Time} {r r' : Router F}

/-! ## Links -/

/-- Writing a link and checking the neighbour at its end. -/
theorem checkNeighbour_follows {T : Tables F} {link : LinkTuple F} (ht : r.tables = T.write (.link link))
    (w : Option Willingness) : Tables.Follows P now T (r.checkNeighbour link w now).tables := by
  have hl : r.tables.links = T.links.insert link := ht ▸ rfl
  have hn : r.tables.neighbours = T.neighbours := ht ▸ rfl
  have ha : r.tables.associations = T.associations := ht ▸ rfl
  have hT (a : Address F) : T.mainAddress a = r.mainAddress a := by
    rw [mainAddress, Tables.mainAddress, ← ha]
    rfl
  have hlink : link ∈ r.tables.links := hl ▸ Table.mem_insert.mpr (.inl rfl)
  have hd : Rederives (r.mainAddress link.neighbour) now r (r.checkNeighbour link w now) :=
    checkNeighbour_rederives ⟨link, hlink, rfl⟩ w
  have hkept (l : LinkTuple F) (hm : l ∈ T.links) : ∃ l' ∈ r.tables.links, l'.neighbour = l.neighbour :=
    hl ▸ Tables.exists_mem_insert link hm
  refine ⟨fun l hm => hd.links ▸ hkept l hm, fun a _ => ?_, fun _ => hd.calm hn ha (fun l hm => ?_)
    fun l hm => .inl (hkept l hm)⟩
  · rw [Tables.mainAddress, hd.associations, ha]
    rfl
  · rw [hl] at hm
    obtain rfl | ⟨hm, -⟩ := Table.mem_insert.mp hm
    · exact .inr (hT _)
    · exact .inl hm

theorem foldl_senseBlock_of_unspecified {blocks : List (HelloBlock F)}
    (h : blocks.any saysLinkState = false) (now validity hold : Time) (link : LinkTuple F) :
    blocks.foldl (senseBlock now validity hold) link = link := by
  induction blocks generalizing link with
  | nil => rfl
  | cons b blocks ih =>
    rw [List.any_cons, Bool.or_eq_false_iff] at h
    have hb : b.code.link = .unspecified := by simpa [saysLinkState] using h.1
    rw [List.foldl_cons, senseBlock, hb]
    exact ih h.2 link

/-- A link is heard for longer. Nothing is said of the link itself. -/
theorem overwriteLink_follows {T : Tables F} {old new : LinkTuple F} (hold : T.links.get? (Keyed.key new) = some old)
    (hsym : new.symTime = old.symTime) (hlost : new.lostTime = old.lostTime) :
    Tables.Follows P now T (T.write (.link new)) := by
  obtain ⟨hmem, hkey⟩ := Table.get?_eq_some_iff.mp hold
  have hend : old.neighbour = new.neighbour := (Prod.mk.inj hkey).2
  have hkept (l : LinkTuple F) (hm : l ∈ T.links) : ∃ l' ∈ T.links.insert new, l'.neighbour = l.neighbour :=
    Tables.exists_mem_insert new hm
  refine ⟨hkept, fun _ _ => rfl, fun _ => ⟨fun main ⟨hstored, hunlinked⟩ => ⟨hstored, ?_⟩, fun _ l hl => ?_⟩⟩
  · rintro ⟨l, hl, hlinked⟩
    obtain ⟨l', hl', hn⟩ := hkept l hl
    exact hunlinked ⟨l', hl', hn ▸ hlinked⟩
  · obtain rfl | ⟨hm, -⟩ := Table.mem_insert.mp hl.mem
    · refine ⟨old, ⟨hmem, ?_, ?_, ?_⟩, hkey⟩
      · rw [LinkTuple.isSymmetric, ← hsym]
        exact hl.symmetric
      · rw [LinkTuple.isLost, ← hlost]
        exact hl.notLost
      · rw [hend]
        exact hl.unstored
    · exact ⟨l, ⟨hm, hl.symmetric, hl.notLost, hl.unstored⟩, rfl⟩

theorem senseHello_follows (r : Router F) (validity : Time) (w : Willingness)
    (blocks : List (HelloBlock F)) (receiver sender : Address F) :
    Tables.Follows P now r.tables (r.senseHello validity w blocks receiver sender now).tables := by
  unfold senseHello
  dsimp only
  split
  · exact checkNeighbour_follows (Store.tables_insert ..) _
  · rename_i link hlink
    split
    · exact checkNeighbour_follows (T := r.tables) rfl _
    · rename_i hsays
      have hsense := foldl_senseBlock_of_unspecified (Bool.eq_false_iff.mpr hsays) now validity
        r.params.neighbourHoldTime
      have hget : r.tables.links.get? (Keyed.key link) = some link :=
        (Table.get?_eq_some_iff.mp hlink).2.symm ▸ hlink
      refine overwriteLink_follows (T := r.tables) (?_ : _ = some link) ?_ ?_ <;> rw [senseLink, hsense]
      exact hget

theorem recordWillingness_follows (r : Router F) (originator : Address F) (w : Willingness) :
    Tables.Follows P now r.tables (r.recordWillingness originator w).tables := by
  unfold recordWillingness
  split
  · exact .refl P now r.tables
  · rename_i n hn
    have hget (a : Address F) : (r.tables.neighbours.insert { n with willingness := w }).get? a =
        if n.main = a then some { n with willingness := w } else r.tables.neighbours.get? a :=
      Table.get?_insert ..
    obtain ⟨-, hmain⟩ := Table.get?_eq_some_iff.mp hn
    have hmain : n.main = originator := hmain
    refine .of_links rfl (fun _ _ => rfl) (fun a ha => ?_) fun a => ?_
    · rw [Table.contains_eq_isSome, onTables, hget] at ha
      rw [Table.contains_eq_isSome]
      split at ha
      · rename_i he
        rw [← he, hmain, hn, Option.isSome_some]
      · exact ha
    · rw [RouteTable.isSymmetricNeighbour, RouteTable.isSymmetricNeighbour, onTables, hget]
      split
      · rename_i he
        rw [← he, hmain, hn]
        rfl
      · rfl

theorem processHello_follows (r : Router F) (originator : Address F) (validity : Time)
    (w : Willingness) (blocks : List (HelloBlock F)) (receiver sender : Address F) :
    Tables.Follows P now r.tables
      (r.processHello originator validity w blocks receiver sender now).tables := by
  unfold processHello
  dsimp only
  refine .trans ?_ ((recordSelector_does _ _ _ _).follows (by decide) P)
  refine .trans ?_ ((updateRelays_does _).follows (by decide) P)
  refine .trans ?_ ((recordTwoHops_does _ _ _ _).follows (by decide) P)
  exact (senseHello_follows r _ _ _ _ _).trans (recordWillingness_follows _ _ _)

/-- A sequence of steps each of which follows while the owners are those of the start. -/
theorem follows_foldl {α : Type} {f : Router F → α → Router F} {l : List α}
    (hf : ∀ r', (∀ a, P a → r'.mainAddress a = r.mainAddress a) →
      ∀ x ∈ l, Tables.Follows P now r'.tables (f r' x).tables) :
    Tables.Follows P now r.tables (l.foldl f r).tables := by
  induction l generalizing r with
  | nil => exact .refl P now r.tables
  | cons x l ih =>
    have hx := hf r (fun _ _ => rfl) x List.mem_cons_self
    exact hx.trans (ih fun r' hr' y hy =>
      hf r' (fun a ha => (hr' a ha).trans (hx.owners a ha)) y (List.mem_cons_of_mem _ hy))

/-! ## Claims of interfaces -/

end Router

theorem Tables.write_link_eq_self {T : Tables F} {key : TupleKey F} {t : LinkTuple F}
    (h : T.get? key = some (.link t)) : T.write (.link t) = T := by
  obtain rfl := Tables.key_of_get? h
  obtain ⟨t', hget, he⟩ := Option.map_eq_some_iff.mp h
  cases he
  rw [write, Table.insert_eq_self (s := T.links) hget]

theorem Tables.mainAddress_write_association (T : Tables F) (t : AssociationTuple F) (a : Address F) :
    (T.write (.association t)).mainAddress a = if t.iface = a then t.main else T.mainAddress a := by
  have hget : (T.associations.insert t).get? a = if t.iface = a then some t else T.associations.get? a :=
    Table.get?_insert ..
  rw [mainAddress, write, hget, mainAddress]
  split <;> rfl

/-- An interface that is claimed for the node that it belongs to stays with it. -/
theorem Tables.Follows.of_association {P : Address F → Prop} {now : Time} {T : Tables F}
    {t : AssociationTuple F} (h : P t.iface → T.mainAddress t.iface = t.main) :
    Tables.Follows P now T (T.write (.association t)) :=
  .of_owners rfl rfl fun a ha => by
    rw [mainAddress_write_association]
    split
    · rename_i he
      exact he ▸ (h (he ▸ ha)).symm
    · rfl

namespace Router

variable {P : Address F → Prop} {now : Time} {r r' : Router F}

theorem recordInterface_follows {originator iface : Address F}
    (h : P iface → r.mainAddress iface = originator) (validUntil : Time) :
    Tables.Follows P now r.tables (recordInterface originator validUntil now r iface).tables := by
  unfold recordInterface
  split
  · exact .refl P now r.tables
  · split
    · rename_i t ht
      obtain ⟨ht, -⟩ := Option.filter_eq_some_iff.mp ht
      have hkey : t.iface = iface := (Table.get?_eq_some_iff.mp ht).2
      refine .of_association (T := r.tables) fun _ => ?_
      rw [Tables.mainAddress, hkey, ht]
      rfl
    · refine Eq.mpr (congrArg _ (Store.tables_insert ..)) (.of_association (T := r.tables) ?_)
      exact h

theorem processMid_follows {originator : Address F} {interfaces : List (Address F)}
    (h : ∀ a ∈ interfaces, P a → r.mainAddress a = originator) (validity : Time) (sender : Address F) :
    Tables.Follows P now r.tables (r.processMid originator validity interfaces sender now).tables := by
  unfold processMid
  split
  · exact follows_foldl fun r' hr' a hm =>
      recordInterface_follows (fun ha => (hr' a ha).trans (h a hm ha)) _
  · exact .refl P now r.tables

end Router

/-- The interfaces that a message claims, each with the owner that it names. -/
def Message.claims (m : Message F) : List (Address F × Address F) :=
  match m.body with
  | .mid interfaces => interfaces.map (·, m.originator)
  | .hello .. | .tc .. | .unknown .. => []

/-- The interfaces that an operation claims, each with the owner that it names. -/
def Operation.claims : Operation F → List (Address F × Address F)
  | packet _ _ datagram =>
    match (Packet.decode datagram : Except DecodeError (Packet F)) with
    | .ok p => p.messages.flatMap Message.claims
    | .error _ => []
  | start _ | stop | timer _ | linkFailed _ | refresh _ => []

namespace Router

variable {P : Address F → Prop} {now : Time} {r r' : Router F}

theorem process_follows {m : Message F} (h : ∀ c ∈ m.claims, P c.1 → r.mainAddress c.1 = c.2)
    (receiver sender : Address F) :
    Tables.Follows P now r.tables (r.process m receiver sender now).tables := by
  unfold process
  split
  · exact processHello_follows ..
  · exact (processTc_does _ _ _ _ _ _).follows (by decide) P
  · rename_i interfaces hbody
    refine processMid_follows (fun a ha => h (a, m.originator) ?_) _ _
    rw [Message.claims, hbody]
    exact List.mem_map_of_mem ha
  · exact .refl P now r.tables

theorem handleMessage_follows {m : Message F} (h : ∀ c ∈ m.claims, P c.1 → r.mainAddress c.1 = c.2)
    (receiver sender : Address F) :
    Tables.Follows P now r.tables (handleMessage receiver sender now r m).tables := by
  unfold handleMessage
  split
  · exact .refl P now r.tables
  · split
    · split
      · exact .refl P now r.tables
      · exact (forward_does _ _ _ _).follows (by decide) P
    · dsimp only
      split
      · exact process_follows h receiver sender
      · exact (process_follows h receiver sender).trans ((forward_does _ _ _ _).follows (by decide) P)

theorem updateRoutes_follows (r : Router F) : Tables.Follows P now r.tables (r.updateRoutes now).tables :=
  have hd : Does [.routes] now r (r.updateRoutes now) := (Does.nothing r).routes List.mem_cons_self
  hd.follows (by decide) P

theorem handlePacket_follows {id : InterfaceId} {sender : Address F} {datagram : Octets}
    (h : ∀ c ∈ (Operation.packet id sender datagram).claims, P c.1 → r.mainAddress c.1 = c.2)
    (hp : r.handlePacket id sender datagram now = .ok r') : Tables.Follows P now r.tables r'.tables := by
  unfold handlePacket at hp
  split at hp
  · split at hp
    · cases hp
    · rename_i receiver _
      split at hp
      · cases hp
      · rename_i p hdecode
        cases hp
        have hclaims : (Operation.packet id sender datagram).claims = p.messages.flatMap Message.claims := by
          rw [Operation.claims, hdecode]
        refine .trans (follows_foldl (r := r.note _) fun r' hr' m hm => ?_) (updateRoutes_follows _)
        refine handleMessage_follows (fun c hc ha => (hr' c.1 ha).trans (h c ?_ ha)) receiver sender
        exact hclaims ▸ List.mem_flatMap.mpr ⟨m, hm, hc⟩
  · cases hp
    exact .refl P now r.tables

/-! ## Reports and timers -/

theorem markLost_follows (r : Router F) (hold : Time) (key : Address F × Address F) :
    Tables.Follows P now r.tables (markLost hold now r key).tables := by
  unfold markLost
  split
  · exact .refl P now r.tables
  · exact checkNeighbour_follows (T := r.tables) (Store.tables_rearm ..) none

theorem linkFailed_follows (r : Router F) (destination : Address F) :
    Tables.Follows P now r.tables (r.linkFailed destination now).tables := by
  unfold linkFailed
  split
  · split
    · exact .refl P now r.tables
    · exact follows_foldl (r := r.note _) fun r' _ key _ => markLost_follows r' _ key
  · exact .refl P now r.tables

theorem linkRemoved_calm {T : Tables F} {link : LinkTuple F}
    (ht : r.tables = T.drop (.link link.iface link.neighbour)) :
    Tables.Calm now T (r.linkRemoved link now).tables := by
  have hl : r.tables.links = T.links.erase (Keyed.key link) := ht ▸ rfl
  have ha : r.tables.associations = T.associations := ht ▸ rfl
  refine (linkRemoved_rederives r link now).calm (ht ▸ rfl) ha (fun l hm => ?_) fun l hm => ?_
  · rw [hl] at hm
    exact .inl (Table.mem_erase.mp hm).1
  · by_cases hk : Keyed.key l = Keyed.key link
    · have hend : l.neighbour = link.neighbour := (Prod.mk.inj hk).2
      rw [mainAddress, ht, hend]
      exact .inr rfl
    · exact .inl ⟨l, hl ▸ Table.mem_erase.mpr ⟨hm, hk⟩, rfl⟩

/-- The timer of a tuple leaves nothing stranded or idle unless it is that of an association of an
interface at the end of a link. -/
theorem expire_calm (r : Router F) (key : TupleKey F) (generation : Nat)
    (ho : ∀ l ∈ (r.expire key generation now).tables.links,
      (r.expire key generation now).mainAddress l.neighbour = r.mainAddress l.neighbour) :
    Tables.Calm now r.tables (r.expire key generation now).tables := by
  have ht := r.toStore.tables_expire key generation now
  unfold expire at *
  dsimp only at *
  generalize r.toStore.expire key generation now = fired at *
  obtain ⟨expiry, store⟩ := fired
  cases expiry with
  | stale =>
    have ht : store.tables = r.tables := ht
    exact ht ▸ Tables.Calm.refl now r.tables
  | pending =>
    have ht : store.tables = r.tables := ht
    have hrefl : Tables.Calm now r.tables store.tables := ht ▸ .refl now r.tables
    dsimp only
    split
    · rename_i t hget
      split
      · exact hrefl
      · have hsame : store.tables = r.tables.write (.link t) := by
          rw [ht] at hget ⊢
          exact (Tables.write_link_eq_self hget).symm
        exact (checkNeighbour_follows (P := fun _ => True) hsame none).calm fun _ _ => trivial
    · exact hrefl
  | expired t =>
    obtain ⟨hget, ht⟩ : r.tables.get? key = some t ∧ store.tables = r.tables.drop key := ht
    obtain rfl := Tables.key_of_get? hget
    have hroutes (r : Router F) : Does [.journal, .relays, .routes] now r (r.updateRoutes now) :=
      (Does.nothing r).routes (by decide)
    cases t with
    | link t => exact linkRemoved_calm ht
    -- what is dropped is no link, and what is computed anew concerns neither links nor neighbours
    | twoHop t => exact Does.calm (recompute_does _ now) (by decide) (by decide) (ht ▸ rfl) (ht ▸ rfl) ho
    | selector t | duplicate t => exact .of_ends (ht ▸ rfl) (ht ▸ rfl) ho
    | topology t | association t => exact Does.calm (hroutes _) (by decide) (by decide) (ht ▸ rfl) (ht ▸ rfl) ho

end Router

/-! ## Operations -/

/-- The operation gives the interface `a` another owner, or claims it for one. -/
def Operation.Reassigns (now : Time) (r : Router F) (op : Operation F) (a : Address F) : Prop :=
  (r.apply now op).mainAddress a ≠ r.mainAddress a ∨ ∃ c ∈ op.claims, c.1 = a ∧ r.mainAddress a ≠ c.2

instance (now : Time) (r : Router F) (op : Operation F) (a : Address F) : Decidable (op.Reassigns now r a) :=
  inferInstanceAs (Decidable (_ ∨ _))

/-- No link ends at an interface that the operation reassigns. -/
def Operation.IsSteady (now : Time) (r : Router F) (op : Operation F) : Prop :=
  ∀ l ∈ (r.apply now op).tables.links, ¬ op.Reassigns now r l.neighbour

instance (now : Time) (r : Router F) (op : Operation F) : Decidable (op.IsSteady now r) :=
  inferInstanceAs (Decidable (∀ l ∈ (r.apply now op).tables.links.toList, _))

namespace Router

variable {now : Time} {r r' : Router F}

theorem packet_calm {id : InterfaceId} {sender : Address F} {datagram : Octets}
    (h : (Operation.packet id sender datagram).IsSteady now r) :
    Tables.Calm now r.tables (r.apply now (.packet id sender datagram)).tables := by
  have hclaim (c : Address F × Address F) (hc : c ∈ (Operation.packet id sender datagram).claims)
      (hs : ¬ (Operation.packet id sender datagram).Reassigns now r c.1) : r.mainAddress c.1 = c.2 :=
    Classical.byContradiction fun hne => hs (.inr ⟨c, hc, rfl, hne⟩)
  unfold Operation.IsSteady at h
  cases hp : r.handlePacket id sender datagram now with
  | ok r' =>
    have happly : r.apply now (.packet id sender datagram) = r' := by rw [apply, hp]
    rw [happly] at h ⊢
    exact (handlePacket_follows (P := fun a => ¬ (Operation.packet id sender datagram).Reassigns now r a)
      hclaim hp).calm h
  | error e =>
    rw [apply, hp]
    exact .refl now r.tables

theorem expiry_calm {key : TupleKey F} {generation : Nat}
    (h : (Operation.timer (.expiry key generation)).IsSteady now r) :
    Tables.Calm now r.tables (r.apply now (.timer (.expiry key generation))).tables := by
  have howner (l : LinkTuple F) (hl : l ∈ (r.apply now (.timer (.expiry key generation))).tables.links) :
      (r.apply now (.timer (.expiry key generation))).mainAddress l.neighbour = r.mainAddress l.neighbour :=
    Classical.not_not.mp (not_or.mp (h l hl)).1
  rw [apply] at howner ⊢
  unfold handleTimer at howner ⊢
  split
  · rename_i hr
    rw [if_pos hr] at howner
    exact expire_calm r key generation howner
  · exact .refl now r.tables

/-- An operation strands a neighbour or makes a link idle only if a link ends at an interface that it
reassigns, apart from links that fall idle where interfaces are chained. -/
theorem apply_calm {op : Operation F} (h : op.IsSteady now r) :
    Tables.Calm now r.tables (r.apply now op).tables := by
  have howner (l : LinkTuple F) (hl : l ∈ (r.apply now op).tables.links) :
      (r.apply now op).mainAddress l.neighbour = r.mainAddress l.neighbour :=
    Classical.not_not.mp (not_or.mp (h l hl)).1
  have hs := r.apply_step now op
  generalize hr' : r.apply now op = r' at hs howner ⊢
  cases hs with
  | idle => exact .refl now r.tables
  | start _ _ _ hd | refresh _ hd =>
    exact .of_ends (hd.links_of_leavesLinks (by decide)) (hd.neighbours_eq (by decide)) howner
  | stop => exact ⟨fun _ hm => Bool.noConfusion hm.1, fun _ _ hl => nomatch hl.mem⟩
  | packet => exact hr' ▸ packet_calm h
  | linkFailed destination =>
    exact hr' ▸ (linkFailed_follows (P := fun _ => True) r destination).calm fun _ _ => trivial
  | hello _ _ _ hd | tc _ _ _ hd | mid _ _ _ hd | flush _ hd => exact .of_eq (hd.tables_eq (by decide))
  | expiry => exact hr' ▸ expiry_calm h

/-! ## Runs -/

/-- The routers that a run leads to whose operations satisfy `ok`. -/
inductive ReachableBy (ok : Time → Router F → Operation F → Prop) : Router F → Time → Prop where
  | create (address : Address F) (params : Params) (entropy : Entropy) :
      ReachableBy ok (create address params entropy) 0
  | apply {r : Router F} {t now : Time} (op : Operation F) :
      ReachableBy ok r t → t ≤ now → ok now r op → ReachableBy ok (r.apply now op) now

theorem ReachableBy.reachable {ok : Time → Router F → Operation F → Prop} {t : Time}
    (h : r.ReachableBy ok t) : r.Reachable t := by
  induction h with
  | create address params entropy => exact .create address params entropy
  | apply op _ ht _ ih => exact .apply op ih ht

theorem ReachableBy.mono {ok ok' : Time → Router F → Operation F → Prop} {t : Time}
    (h : r.ReachableBy ok t) (hok : ∀ now r op, ok now r op → ok' now r op) : r.ReachableBy ok' t := by
  induction h with
  | create address params entropy => exact .create address params entropy
  | apply op _ ht hop ih => exact .apply op ih ht (hok _ _ op hop)

end Router

end Manet
