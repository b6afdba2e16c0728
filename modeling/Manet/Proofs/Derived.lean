import Manet.Proofs.Step

/-!
# Derived data

A router derives its relays from the neighbourhood and its routes from all that it knows.
`Router.KeepsUp` says that neither lags behind the tables after an operation. The functions that
compute both anew leave nothing out of date, whatever was there before (`loseNeighbour_upToDate`,
`linkRemoved_upToDate`, `handlePacket_upToDate`); `Does.relaysCurrent` and its like are for those
that change nothing of what relays or routes are derived from.
-/

namespace Manet

variable {F : Family}

/-- What relays and routes are derived from. -/
def Tables.knowledge (T : Tables F) :=
  (T.links, T.neighbours, T.twoHops, T.topology, T.associations)

/-- The neighbour that a call tells the loss of. -/
def Call.lost? : Call F → Option (Address F)
  | .neighbourLost main => some main
  | .schedule .. | .cancel .. | .broadcast .. | .routeAdded .. | .routeChanged .. | .routeRemoved ..
  | .relaysChanged .. | .oversized .. => none

/-- The neighbours whose loss is told. -/
def Journal.losses (j : Journal F) : List (Address F) := j.calls.toList.filterMap Call.lost?

namespace Router

/-- The relays are those that the neighbourhood calls for. -/
def RelaysCurrent (r : Router F) : Prop :=
  r.tables.mprs = selectRelays r.address r.tables.neighbours r.tables.twoHops

/-- The routes are those that the tables say at `now`. -/
def RoutesCurrent (r : Router F) (now : Time) : Prop :=
  r.routes = RouteTable.compute r.tables r.localAddresses now

/-- Nothing derived lags behind the tables after an operation at `now` that led from `r` to `r'`. -/
def KeepsUp (now : Time) (r r' : Router F) : Prop :=
  r'.RelaysCurrent ∧ (r'.tables.knowledge ≠ r.tables.knowledge → r'.RoutesCurrent now)

end Router

/-! ## Frames -/

/-- Whether the selection of relays may depend on a part. -/
def Part.concernsRelays : Part → Bool
  | neighbours | relays | stored .twoHop | refreshed .twoHop | dropped .twoHop => true
  | journal | loss | sending | stored _ | refreshed _ | dropped _ | lasting | routes | queue => false

theorem Deed.onTables_eq {d : Deed F} (hd : d.part.concernsRelays = false) (T : Tables F) :
    (d.onTables T).neighbours = T.neighbours ∧ (d.onTables T).twoHops = T.twoHops ∧
      (d.onTables T).mprs = T.mprs := by
  cases d with
  | insert t => cases t <;> first | exact ⟨rfl, rfl, rfl⟩ | cases hd
  | refresh t => cases t <;> first | exact ⟨rfl, rfl, rfl⟩ | cases hd
  | erase k =>
    unfold Deed.onTables
    dsimp only
    split
    · cases k <;> first | exact ⟨rfl, rfl, rfl⟩ | cases hd
    · exact ⟨rfl, rfl, rfl⟩
  | neighbours | relays => cases hd
  | _ => exact ⟨rfl, rfl, rfl⟩

/-- Whether links, or who is at their ends, may change with a part. -/
def Part.concernsLinks : Part → Bool
  | neighbours | lasting | stored .link | refreshed .link | dropped .link | stored .association
  | refreshed .association | dropped .association => true
  | journal | loss | sending | stored _ | refreshed _ | dropped _ | relays | routes | queue => false

theorem Deed.onTables_links {d : Deed F} (hd : d.part.concernsLinks = false) (T : Tables F) :
    (d.onTables T).links = T.links ∧ (d.onTables T).neighbours = T.neighbours ∧
      (d.onTables T).associations = T.associations := by
  cases d with
  | insert t =>
    cases t with
    | association t =>
      rw [part] at hd
      split at hd <;> cases hd
    | link => cases hd
    | _ => exact ⟨rfl, rfl, rfl⟩
  | refresh t => cases t <;> first | exact ⟨rfl, rfl, rfl⟩ | cases hd
  | erase k =>
    unfold Deed.onTables
    dsimp only
    split
    · cases k <;> first | exact ⟨rfl, rfl, rfl⟩ | cases hd
    · exact ⟨rfl, rfl, rfl⟩
  | mark | neighbours => cases hd
  | _ => exact ⟨rfl, rfl, rfl⟩

/-- Whether a part has nothing to do with tables. -/
def Part.isOutward : Part → Bool
  | journal | loss | sending | routes | queue => true
  | stored _ | lasting | refreshed _ | dropped _ | neighbours | relays => false

theorem Deed.onTables_of_isOutward {d : Deed F} (hd : d.part.isOutward = true) (T : Tables F) :
    d.onTables T = T := by
  cases d with
  | insert t =>
    rw [part] at hd
    split at hd <;> cases hd
  | refresh | erase | mark | neighbours | relays => cases hd
  | _ => rfl

/-! Losses are told, and not otherwise entered into the journal. -/

theorem Call.lost?_eq_none (c : Call F) (hc : c.part ≠ .loss) : c.lost? = none := by
  cases c <;> first | rfl | exact absurd rfl hc

namespace Journal

theorem losses_call (j : Journal F) (c : Call F) :
    (j.call c).losses = j.losses ++ c.lost?.toList :=
  j.read_call c

theorem isTimeless_losses (l : List (Address F)) : IsTimeless fun j : Journal F => j.losses = l :=
  isTimeless_read Call.lost?_eq_none (p := .loss) (by decide) l

end Journal

namespace Does

variable {ps : List Part} {now : Time} {r r' : Router F}

theorem relaysCurrent (h : Does ps now r r') (hp : ∀ p ∈ ps, p.concernsRelays = false)
    (hr : r.RelaysCurrent) : r'.RelaysCurrent := by
  refine h.keep (fun r d hd _ hr => ?_) hr
  obtain ⟨hn, ht, hm⟩ := d.onTables_eq (hp _ hd) r.tables
  rw [Router.RelaysCurrent, r.perform_tables, hn, ht, hm, (r.perform_sameNode now d).address]
  exact hr

theorem links_eq (h : Does ps now r r') (hp : ∀ p ∈ ps, p.concernsLinks = false) :
    r'.tables.links = r.tables.links ∧ r'.tables.neighbours = r.tables.neighbours ∧
      r'.tables.associations = r.tables.associations := by
  refine h.keep (P := fun r' => r'.tables.links = r.tables.links ∧
    r'.tables.neighbours = r.tables.neighbours ∧
      r'.tables.associations = r.tables.associations) (fun r' d hd _ hr => ?_) ⟨rfl, rfl, rfl⟩
  obtain ⟨hl, hn, ha⟩ := d.onTables_links (hp _ hd) r'.tables
  rw [r'.perform_tables, hl, hn, ha]
  exact hr

theorem tables_eq (h : Does ps now r r') (hp : ∀ p ∈ ps, p.isOutward = true) :
    r'.tables = r.tables := by
  refine h.keep (P := fun r' => r'.tables = r.tables) (fun r' d hd _ hr => ?_) rfl
  rw [r'.perform_tables, Deed.onTables_of_isOutward (hp _ hd), hr]

theorem mprs_eq (h : Does ps now r r') (hp : .relays ∉ ps) : r'.tables.mprs = r.tables.mprs := by
  refine h.keep (P := fun r' => r'.tables.mprs = r.tables.mprs) (fun r' d hd _ hr => ?_) rfl
  rw [r'.perform_tables, ← hr]
  cases d with
  | relays => exact absurd hd hp
  | insert t => cases t <;> rfl
  | refresh t => cases t <;> rfl
  | erase k =>
    unfold Deed.onTables
    dsimp only
    split
    · cases k <;> rfl
    · rfl
  | _ => rfl

theorem losses_eq (h : Does ps now r r') (hp : .loss ∉ ps) :
    r'.journal.losses = r.journal.losses :=
  h.read_eq Call.lost?_eq_none (by decide) hp

end Does

namespace Router

variable {now : Time} {r r' : Router F}

/-! ## Recomputation -/

/-- Nothing derived lags behind the tables. -/
structure UpToDate (now : Time) (r : Router F) : Prop where
  relays : r.RelaysCurrent
  routes : r.RoutesCurrent now

theorem UpToDate.keepsUp (h : r'.UpToDate now) : KeepsUp now r r' := ⟨h.relays, fun _ => h.routes⟩

theorem updateRelays_relaysCurrent (r : Router F) : r.updateRelays.RelaysCurrent := by
  obtain ⟨j, hj⟩ := r.updateRelays_eq
  rw [hj]
  rfl

theorem updateRoutes_routesCurrent (r : Router F) (now : Time) :
    (r.updateRoutes now).RoutesCurrent now := by
  obtain ⟨j, hj, -⟩ := r.updateRoutes_eq now
  rw [hj]
  rfl

theorem RelaysCurrent.updateRoutes (h : r.RelaysCurrent) (now : Time) :
    (r.updateRoutes now).UpToDate now :=
  have hd : Does [.routes] now r (r.updateRoutes now) := (Does.nothing r).routes (by decide)
  ⟨hd.relaysCurrent (by decide) h, r.updateRoutes_routesCurrent now⟩

theorem UpToDate.call (h : r.UpToDate now) (c : Call F) : (r.call c).UpToDate now :=
  ⟨h.relays, h.routes⟩

theorem loseNeighbour_upToDate (r : Router F) (main : Address F) (now : Time) :
    (r.loseNeighbour main now).UpToDate now := by
  unfold loseNeighbour forgetNeighbour
  dsimp only
  exact ((updateRelays_relaysCurrent _).updateRoutes now).call _

theorem loseNeighbour_losses (r : Router F) (main : Address F) (now : Time) :
    (r.loseNeighbour main now).journal.losses = r.journal.losses ++ [main] := by
  obtain ⟨r', hd, he⟩ := (r.note (.neighbourLost main)).forgetNeighbour_eq main now
  rw [loseNeighbour, he]
  refine (Journal.losses_call ..).trans ?_
  rw [hd.losses_eq (by decide)]
  rfl

theorem linkRemoved_upToDate (r : Router F) (link : LinkTuple F) (now : Time) :
    (r.linkRemoved link now).UpToDate now := by
  rw [linkRemoved_eq]
  dsimp only
  split
  · exact loseNeighbour_upToDate ..
  · exact RelaysCurrent.updateRoutes (updateRelays_relaysCurrent _) now

/-! ## Receptions -/

theorem processHello_relaysCurrent (r : Router F) (originator : Address F) (validity : Time)
    (w : Willingness) (blocks : List (HelloBlock F)) (receiver sender : Address F) :
    (r.processHello originator validity w blocks receiver sender now).RelaysCurrent := by
  unfold processHello
  dsimp only
  refine Does.relaysCurrent (recordSelector_does _ _ _ _) (by decide) ?_
  exact updateRelays_relaysCurrent _

theorem process_relaysCurrent (h : r.RelaysCurrent) (m : Message F) (ho : m.originator ≠ r.address)
    (receiver sender : Address F) : (r.process m receiver sender now).RelaysCurrent := by
  unfold process
  split
  · exact processHello_relaysCurrent ..
  · exact (processTc_does r _ _ _ _ _).relaysCurrent (by decide) h
  · exact (processMid_does r ho _ _ _).relaysCurrent (by decide) h
  · exact h

theorem handleMessage_relaysCurrent (h : r.RelaysCurrent) (m : Message F)
    (receiver sender : Address F) : (handleMessage receiver sender now r m).RelaysCurrent := by
  unfold handleMessage
  split
  · exact h
  · rename_i hm
    have ho := originator_ne_of_not_local hm
    split
    · split
      · exact h
      · exact (forward_does _ _ _ _).relaysCurrent (by decide) h
    · dsimp only
      split
      · exact process_relaysCurrent h m ho receiver sender
      · exact (forward_does _ _ _ _).relaysCurrent (by decide)
          (process_relaysCurrent h m ho receiver sender)

theorem foldl_handleMessage_relaysCurrent (h : r.RelaysCurrent) (ms : List (Message F))
    (receiver sender : Address F) :
    (ms.foldl (handleMessage receiver sender now) r).RelaysCurrent := by
  induction ms generalizing r with
  | nil => exact h
  | cons m ms ih => exact ih (handleMessage_relaysCurrent h m receiver sender)

/-- A datagram that is taken in leaves nothing out of date. -/
theorem handlePacket_upToDate (h : r.RelaysCurrent) (hr : r.running = true) {id : InterfaceId}
    {sender : Address F} {datagram : Octets}
    (hp : r.handlePacket id sender datagram now = .ok r') : r'.UpToDate now := by
  rw [handlePacket, if_pos hr] at hp
  split at hp
  · cases hp
  · rename_i receiver hreceiver
    split at hp
    · cases hp
    · rename_i p hdecode
      cases hp
      refine RelaysCurrent.updateRoutes ?_ now
      exact foldl_handleMessage_relaysCurrent (r := r.note _) h p.messages receiver sender

/-! ## Nothing computed anew -/

/-- Nothing derived was computed anew, and no loss was told. -/
structure Undisturbed (r r' : Router F) : Prop where
  mprs : r'.tables.mprs = r.tables.mprs
  routes : r'.routes = r.routes
  losses : r'.journal.losses = r.journal.losses

theorem Undisturbed.of_does {ps : List Part} (h : Does ps now r r') (hr : .relays ∉ ps)
    (ht : .routes ∉ ps) (hl : .loss ∉ ps) : Undisturbed r r' :=
  ⟨h.mprs_eq hr, h.routes_eq ht, h.losses_eq hl⟩

theorem Undisturbed.trans {r'' : Router F} (h : Undisturbed r r') (h' : Undisturbed r' r'') :
    Undisturbed r r'' :=
  ⟨h'.mprs.trans h.mprs, h'.routes.trans h.routes, h'.losses.trans h.losses⟩

end Router

end Manet
