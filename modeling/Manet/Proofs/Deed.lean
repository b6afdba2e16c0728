import Manet.Proofs.Operation
import Manet.Proofs.Storage
import Manet.Proofs.TableContents

/-!
# What a router does

Between two calls of its host a router does a few kinds of things only: it stores, refreshes and
drops tuples, derives neighbours, relays and routes, lets messages wait, and writes into its
journal. `Deed` lists them, `Router.perform` does one, and `Deed.Fits` says under which
circumstances the router does it. `Does ps now r r'` is a sequence of fitting deeds that lead from
`r` to `r'` and concern no other parts of the state than `ps`; `Does.keep` carries a property of
routers along it. Every function of a running router is such a sequence (`Manet.Proofs.Footprint`).
-/

namespace Manet

variable {F : Family}

/-- A call that concerns neither timers nor routes, sends no packet and tells of no lost neighbour. -/
def Call.isPlain : Call F → Bool
  | .relaysChanged .. | .oversized .. => true
  | .schedule .. | .cancel .. | .broadcast .. | .routeAdded .. | .routeChanged .. | .routeRemoved ..
  | .neighbourLost .. => false

/-- A call that concerns routes. -/
def Call.isRouting : Call F → Bool
  | .routeAdded .. | .routeChanged .. | .routeRemoved .. => true
  | .schedule .. | .cancel .. | .broadcast .. | .neighbourLost .. | .relaysChanged ..
  | .oversized .. => false

namespace Journal

/-- `j'` has further notices and calls that concern routes after the entries of `j`. -/
inductive Reports (j : Journal F) : Journal F → Prop where
  | nothing : Reports j j
  | note {j' : Journal F} (n : Notice F) : Reports j j' → Reports j (j'.note n)
  | call {j' : Journal F} (c : Call F) : c.isRouting = true → Reports j j' → Reports j (j'.call c)

theorem Reports.trans {j j' j'' : Journal F} (h : Reports j j') (h' : Reports j' j'') :
    Reports j j'' := by
  induction h' with
  | nothing => exact h
  | note n _ ih => exact ih.note n
  | call c hc _ ih => exact ih.call c hc

/-- Cancels the timers with the given handles. -/
def cancelAll (j : Journal F) (hs : List Handle) : Journal F :=
  hs.foldl (fun j h => j.call (.cancel h)) j

/-- Withdraws routes. -/
def withdrawAll (j : Journal F) (routes : List (Route F)) : Journal F :=
  routes.foldl (fun j route => j.call (.routeRemoved route)) j

end Journal

/-! ## Parts of the state -/

/-- The six kinds of tuples with a validity time. -/
inductive TupleKind where
  | link
  | twoHop
  | selector
  | topology
  | association
  | duplicate
deriving DecidableEq

/-- The kind of tuple that a key belongs to. -/
def TupleKey.kind : TupleKey F → TupleKind
  | link .. => .link
  | twoHop .. => .twoHop
  | selector .. => .selector
  | topology .. => .topology
  | association .. => .association
  | duplicate .. => .duplicate

/-- What a deed may concern. A timer is armed for a stored tuple, a refreshed tuple keeps the timer
that is armed for it, a lasting or dropped one has none. -/
inductive Part where
  | journal
  /-- That a neighbour was lost. -/
  | loss
  /-- That a packet is sent, or is too long to be. -/
  | sending
  | stored (kind : TupleKind)
  /-- An association without an end. -/
  | lasting
  | refreshed (kind : TupleKind)
  | dropped (kind : TupleKind)
  | neighbours
  | relays
  | routes
  | queue
deriving DecidableEq

/-- Whether a timer is armed for a tuple. -/
def Part.isStored : Part → Bool
  | stored _ => true
  | journal | loss | sending | lasting | refreshed _ | dropped _ | neighbours | relays | routes
  | queue => false

/-- Whether a part is no tuple of the given kind. -/
def Part.spares (kind : TupleKind) : Part → Bool
  | stored k | refreshed k | dropped k => k ≠ kind
  | lasting => kind ≠ .association
  | journal | loss | sending | neighbours | relays | routes | queue => true

/-- Whether a tuple of the given kind may be stored or refreshed. -/
def Part.brings (kind : TupleKind) : Part → Bool
  | stored k | refreshed k => k = kind
  | lasting => kind = .association
  | journal | loss | sending | dropped _ | neighbours | relays | routes | queue => false

theorem Part.brings_or_spares (kind : TupleKind) (p : Part) :
    p.brings kind = true ∨ p.spares kind = true ∨ p = .dropped kind := by
  cases p <;> simp [brings, spares] <;> grind

/-- Whether a tuple is refreshed. -/
def Part.isRefreshed : Part → Bool
  | refreshed _ => true
  | journal | loss | sending | stored _ | lasting | dropped _ | neighbours | relays | routes
  | queue => false

/-- The part of the state that a call concerns, unless it is about a timer. -/
def Call.part : Call F → Part
  | .schedule .. | .cancel .. | .relaysChanged .. => .journal
  | .broadcast .. | .oversized .. => .sending
  | .routeAdded .. | .routeChanged .. | .routeRemoved .. => .routes
  | .neighbourLost .. => .loss

/-! ## Deeds -/

/-- Something that a running router does. -/
inductive Deed (F : Family) where
  | note (n : Notice F)
  | tell (c : Call F)
  /-- Tells that a neighbour was lost. -/
  | loss (main : Address F)
  /-- Sends a packet out of an interface. -/
  | send (id : InterfaceId) (packet : Octets)
  | insert (t : TimedTuple F)
  /-- Writes a tuple over the one with its key, whose timer stays. -/
  | refresh (t : TimedTuple F)
  | erase (k : TupleKey F)
  /-- Writes a link over the one with its key and arms a timer for it. -/
  | mark (t : LinkTuple F)
  | neighbours (table : Table (NeighbourTuple F))
  | relays (mprs : AddressSet F)
  | routes
  | enqueue (m : Message F)
  /-- Takes the sequence number of the next message. -/
  | numberMessage (s : SeqNum)
  /-- Takes the sequence number of the next packet. -/
  | numberPacket (s : SeqNum)

/-- The part of the state that a deed concerns. -/
def Deed.part : Deed F → Part
  | note _ => .journal
  | tell c => c.part
  | loss _ => .loss
  | send .. => .sending
  | insert t => if t.time.isSome then .stored t.key.kind else .lasting
  | refresh t => .refreshed t.key.kind
  | erase k => .dropped k.kind
  | mark _ => .stored .link
  | neighbours _ => .neighbours
  | relays _ => .relays
  | routes => .routes
  | enqueue _ | numberMessage _ | numberPacket _ => .queue

/-- Does a deed. -/
def Router.perform (r : Router F) (now : Time) : Deed F → Router F
  | .note n => r.note n
  | .tell c => r.call c
  | .loss main => r.call (.neighbourLost main)
  | .send id packet => r.call (.broadcast id packet)
  | .insert t => r.onStore (·.insert t now)
  | .refresh t => r.onStore (·.overwrite t)
  | .erase k => r.onStore (·.erase k)
  | .mark t => r.onStore fun s => (s.overwrite (.link t)).rearm (.link t.iface t.neighbour) now
  | .neighbours table => r.onTables ({ · with neighbours := table })
  | .relays mprs => r.onTables ({ · with mprs })
  | .routes => r.updateRoutes now
  | .enqueue m => r.enqueue m
  | .numberMessage s => { r with messageSeqno := s }
  | .numberPacket s => { r with packetSeqno := s }

/-- Only associations with the node with main address `self` last. -/
def TimedTuple.LastsOnlyFor (self : Address F) : TimedTuple F → Prop
  | association t => t.time = none → t.main = self
  | _ => True

/-- What a deed makes of the tables. -/
def Deed.onTables (T : Tables F) : Deed F → Tables F
  | insert t => T.put t
  | refresh t => T.write t
  | erase k => if (T.get? k).isSome then T.drop k else T
  | mark t => T.write (.link t)
  | neighbours table => { T with neighbours := table }
  | relays mprs => { T with mprs }
  | note _ | tell _ | loss _ | send .. | routes | enqueue _ | numberMessage _ | numberPacket _ => T

/-- What holds of a tuple that the router with main address `self` stores: it is valid for some
time, a link is not lost, and only associations with this node last. -/
def TimedTuple.IsFresh (self : Address F) (now : Time) (t : TimedTuple F) : Prop :=
  (∀ e, t.time = some e → now ≤ e) ∧ (∀ l, t = link l → l.lostTime = none) ∧ t.LastsOnlyFor self

/-- What holds of a tuple that the router with main address `self` writes over `old`: a link is not
lost anew, and the association is one with another node, as before, and does not last. -/
def TimedTuple.Renews (self : Address F) (t old : TimedTuple F) : Prop :=
  match t, old with
  | link t, link old => t.lostTime = none ∨ t.lostTime = old.lostTime
  | association t, association old => t.time.isSome ∧ t.main = old.main ∧ t.main ≠ self
  | _, _ => True

/-- The circumstances under which a router does a deed. -/
def Deed.Fits (now : Time) (r : Router F) : Deed F → Prop
  | tell c => c.isPlain = true
  | insert t => t.IsFresh r.address now
  | refresh t => ∃ old, r.tables.get? t.key = some old ∧ t.Renews r.address old
  | mark t => ∃ old, r.tables.links.get? (t.iface, t.neighbour) = some old ∧
      t = { old with
        lostTime := some (now + r.params.neighbourHoldTime)
        time := now + r.params.neighbourHoldTime }
  | _ => True

/-! ## What deeds leave alone -/

namespace Router

/-- What writes reports into the journal route by route. -/
theorem foldl_reports {f : Router F → Route F → Router F}
    (hf : ∀ r route, ∃ j, f r route = { r with journal := j } ∧ r.journal.Reports j)
    (l : List (Route F)) (r : Router F) :
    ∃ j, l.foldl f r = { r with journal := j } ∧ r.journal.Reports j := by
  induction l generalizing r with
  | nil => exact ⟨_, rfl, .nothing⟩
  | cons route l ih =>
    obtain ⟨j, hj, hr⟩ := hf r route
    obtain ⟨j', hj', hr'⟩ := ih { r with journal := j }
    rw [List.foldl_cons, hj, hj']
    exact ⟨j', rfl, hr.trans hr'⟩

theorem reportRoute_eq (old : RouteTable F) (r : Router F) (route : Route F) :
    ∃ j, reportRoute old r route = { r with journal := j } ∧ r.journal.Reports j := by
  unfold reportRoute
  split
  · exact ⟨_, rfl, .call _ rfl (.note _ .nothing)⟩
  · split
    · exact ⟨_, rfl, .nothing⟩
    · exact ⟨_, rfl, .call _ rfl (.note _ .nothing)⟩

theorem reportRemoved_eq (new : RouteTable F) (r : Router F) (route : Route F) :
    ∃ j, reportRemoved new r route = { r with journal := j } ∧ r.journal.Reports j := by
  unfold reportRemoved
  split
  · exact ⟨_, rfl, .nothing⟩
  · exact ⟨_, rfl, .call _ rfl (.note _ .nothing)⟩

/-- Apart from the journal, only the routes change, to those that the tables say. -/
theorem updateRoutes_eq (r : Router F) (now : Time) :
    ∃ j, r.updateRoutes now =
        { r with journal := j, routes := RouteTable.compute r.tables r.localAddresses now } ∧
      r.journal.Reports j := by
  unfold updateRoutes
  dsimp only
  obtain ⟨j, hj, hr⟩ := foldl_reports (reportRoute_eq r.routes)
    (RouteTable.compute r.tables r.localAddresses now).toList
    { r with routes := RouteTable.compute r.tables r.localAddresses now }
  rw [hj]
  obtain ⟨j', hj', hr'⟩ := foldl_reports
    (reportRemoved_eq (RouteTable.compute r.tables r.localAddresses now)) r.routes.toList
    { r with
      journal := j
      routes := RouteTable.compute r.tables r.localAddresses now }
  exact ⟨j', hj', hr.trans hr'⟩

theorem updateRoutes_tables (r : Router F) (now : Time) : (r.updateRoutes now).tables = r.tables := by
  obtain ⟨j, hj, -⟩ := r.updateRoutes_eq now
  rw [hj]

theorem updateRoutes_outbound (r : Router F) (now : Time) :
    (r.updateRoutes now).outbound = r.outbound := by
  obtain ⟨j, hj, -⟩ := r.updateRoutes_eq now
  rw [hj]

/-- Apart from the journal, only the relays change, to those that the tables say. -/
theorem updateRelays_eq (r : Router F) :
    ∃ j, r.updateRelays =
      { r with
        journal := j
        tables := { r.tables with
          mprs := selectRelays r.address r.tables.neighbours r.tables.twoHops } } := by
  unfold updateRelays
  dsimp only
  split
  · rename_i h
    exact ⟨r.journal, by rw [h]⟩
  · exact ⟨_, rfl⟩

/-- A message waits for the flush that is pending, or for one that the host is asked for. -/
theorem enqueue_cases (r : Router F) (m : Message F) :
    (r.flushTimer.isSome = true ∧ r.enqueue m = { r with outbound := r.outbound ++ [m] }) ∨
      (r.flushTimer = none ∧ ∃ delay entropy, r.enqueue m =
        { r with
          outbound := r.outbound ++ [m]
          journal := r.journal.schedule delay .flush
          flushTimer := some r.journal.nextHandle
          entropy }) := by
  unfold enqueue
  dsimp only
  split
  · rename_i hf
    exact .inl ⟨hf, rfl⟩
  · rename_i hf
    exact .inr ⟨Option.not_isSome_iff_eq_none.mp hf, _, _, rfl⟩

/-- `r'` is the same node as `r`, between the same calls of its periodic timers. -/
structure SameNode (r r' : Router F) : Prop where
  address : r'.address = r.address
  params : r'.params = r.params
  interfaces : r'.interfaces = r.interfaces
  running : r'.running = r.running
  helloTimer : r'.helloTimer = r.helloTimer
  tcTimer : r'.tcTimer = r.tcTimer
  midTimer : r'.midTimer = r.midTimer

theorem SameNode.refl (r : Router F) : SameNode r r := ⟨rfl, rfl, rfl, rfl, rfl, rfl, rfl⟩

theorem SameNode.trans {r r' r'' : Router F} (h : SameNode r r') (h' : SameNode r' r'') :
    SameNode r r'' :=
  ⟨h'.address.trans h.address, h'.params.trans h.params, h'.interfaces.trans h.interfaces,
    h'.running.trans h.running, h'.helloTimer.trans h.helloTimer, h'.tcTimer.trans h.tcTimer,
    h'.midTimer.trans h.midTimer⟩

theorem SameNode.localAddresses_eq {r r' : Router F} (h : SameNode r r') :
    r'.localAddresses = r.localAddresses := by
  rw [localAddresses, h.address, h.interfaces, localAddresses]

theorem SameNode.isLocal_eq {r r' : Router F} (h : SameNode r r') (a : Address F) :
    r'.isLocal a = r.isLocal a := by
  rw [isLocal, h.localAddresses_eq, isLocal]

theorem perform_sameNode (r : Router F) (now : Time) (d : Deed F) :
    SameNode r (r.perform now d) := by
  cases d with
  | routes =>
    obtain ⟨j, hj, -⟩ := r.updateRoutes_eq now
    rw [perform, hj]
    exact ⟨rfl, rfl, rfl, rfl, rfl, rfl, rfl⟩
  | enqueue m =>
    rcases r.enqueue_cases m with ⟨-, he⟩ | ⟨-, _, _, he⟩ <;> rw [perform, he] <;>
      exact ⟨rfl, rfl, rfl, rfl, rfl, rfl, rfl⟩
  | _ => exact ⟨rfl, rfl, rfl, rfl, rfl, rfl, rfl⟩

theorem tables_onStore_insert (r : Router F) (t : TimedTuple F) (now : Time) :
    (r.onStore (·.insert t now)).tables = r.tables.put t := Store.tables_insert ..

theorem tables_onStore_erase (r : Router F) (k : TupleKey F) :
    (r.onStore (·.erase k)).tables =
      if (r.tables.get? k).isSome then r.tables.drop k else r.tables := Store.tables_erase ..

theorem perform_tables (r : Router F) (now : Time) (d : Deed F) :
    (r.perform now d).tables = d.onTables r.tables := by
  cases d with
  | insert t => exact r.tables_onStore_insert t now
  | erase k => exact r.tables_onStore_erase k
  | mark t => exact Store.tables_rearm ..
  | routes => exact r.updateRoutes_tables now
  | enqueue m =>
    rcases r.enqueue_cases m with ⟨-, he⟩ | ⟨-, _, _, he⟩ <;> rw [perform, he] <;> rfl
  | _ => rfl

end Router

/-- A deed leaves the tuples of the kinds alone that it does not concern. -/
theorem Deed.get?_onTables {d : Deed F} {k : TupleKey F} (hd : d.part.spares k.kind = true)
    (T : Tables F) : (d.onTables T).get? k = T.get? k := by
  have hne (k' : TupleKey F) (h : k'.kind ≠ k.kind) : k' ≠ k := fun he => h (he ▸ rfl)
  cases d with
  | insert t =>
    have hkey : t.key.kind ≠ k.kind := by
      rw [part] at hd
      split at hd
      · exact of_decide_eq_true hd
      · rename_i ht
        cases t with
        | association => exact (of_decide_eq_true hd).symm
        | _ => exact absurd rfl ht
    rw [onTables, Tables.get?_put, if_neg (hne _ hkey)]
  | refresh t => rw [onTables, Tables.get?_write, if_neg (hne _ (of_decide_eq_true hd))]
  | erase k' =>
    unfold onTables
    dsimp only
    split
    · rw [Tables.get?_drop, if_neg (hne k' (of_decide_eq_true hd)).symm]
    · rfl
  | mark t =>
    have hkind : (TupleKey.link t.iface t.neighbour).kind ≠ k.kind := of_decide_eq_true hd
    rw [onTables, Tables.get?_write, TimedTuple.key, if_neg (hne _ hkind)]
  | neighbours | relays => cases k <;> rfl
  | _ => rfl

/-- Tuples only go where none are brought. -/
theorem Deed.get?_of_get?_onTables {d : Deed F} {k : TupleKey F} (hd : d.part.brings k.kind = false)
    {T : Tables F} {t : TimedTuple F} (h : (d.onTables T).get? k = some t) : T.get? k = some t := by
  rcases d.part.brings_or_spares k.kind with hb | hs | hdrop
  · cases hd.symm.trans hb
  · rwa [Deed.get?_onTables hs] at h
  · cases d with
    | erase k' =>
      unfold onTables at h
      dsimp only at h
      split at h
      · rw [Tables.get?_drop] at h
        split at h
        · cases h
        · exact h
      · exact h
    | insert t' =>
      rw [part] at hdrop
      split at hdrop <;> cases hdrop
    | tell => exact h
    | _ => cases hdrop

/-- Only selectors that come or go renumber the advertised set. -/
theorem Deed.ansn_onTables {d : Deed F} (hd : d.part ≠ .stored .selector)
    (hd' : d.part ≠ .dropped .selector) (T : Tables F) : (d.onTables T).ansn = T.ansn := by
  cases d with
  | insert t => cases t <;> first | rfl | exact absurd rfl hd
  | refresh t => cases t <;> rfl
  | erase k =>
    unfold onTables
    dsimp only
    split
    · cases k <;> first | rfl | exact absurd rfl hd'
    · rfl
  | _ => rfl

/-! ## Sequences of deeds -/

/-- `r'` is what fitting deeds that concern the parts `ps` make of `r`. -/
inductive Does (ps : List Part) (now : Time) : Router F → Router F → Prop where
  | nothing (r : Router F) : Does ps now r r
  | step {r r' : Router F} (d : Deed F) : d.part ∈ ps → d.Fits now r →
      Does ps now (r.perform now d) r' → Does ps now r r'

namespace Does

variable {ps qs : List Part} {now : Time} {r r' r'' : Router F}

theorem trans (h : Does ps now r r') (h' : Does ps now r' r'') : Does ps now r r'' := by
  induction h with
  | nothing => exact h'
  | step d hd hf _ ih => exact .step d hd hf (ih h')

theorem mono (h : Does ps now r r') (hs : ∀ p ∈ ps, p ∈ qs) : Does qs now r r' := by
  induction h with
  | nothing => exact .nothing _
  | step d hd hf _ ih => exact .step d (hs _ hd) hf ih

/-- A property that every fitting deed keeps is kept. -/
theorem keep {P : Router F → Prop} (h : Does ps now r r')
    (hP : ∀ r d, d.part ∈ ps → d.Fits now r → P r → P (r.perform now d)) (hr : P r) : P r' := by
  induction h with
  | nothing => exact hr
  | step d hd hf _ ih => exact ih (hP _ d hd hf hr)

theorem sameNode (h : Does ps now r r') : Router.SameNode r r' :=
  h.keep (fun r d _ _ hr => hr.trans (r.perform_sameNode now d)) (.refl r)

/-- Emissions do not look at the periodic timers. -/
theorem periodic (h : Does [.journal, .queue] now r r') (f g k : Option Handle → Option Handle) :
    Does [.journal, .queue] now
      { r with helloTimer := f r.helloTimer, tcTimer := g r.tcTimer, midTimer := k r.midTimer }
      { r' with
        helloTimer := f r'.helloTimer, tcTimer := g r'.tcTimer, midTimer := k r'.midTimer } := by
  induction h with
  | nothing => exact .nothing _
  | @step r _ d hd hf _ ih =>
    cases d with
    | note n => exact .step (.note n) hd hf ih
    | tell c => exact .step (.tell c) hd hf ih
    | enqueue m =>
      refine .step (.enqueue m) hd trivial ?_
      simp only [Router.perform, Router.enqueue] at ih ⊢
      split at ih <;> rename_i hm
      · rwa [if_pos hm]
      · rwa [if_neg hm]
    | numberMessage s => exact .step (.numberMessage s) hd trivial ih
    | numberPacket s => exact .step (.numberPacket s) hd trivial ih
    | insert t =>
      rw [Deed.part] at hd
      split at hd <;> simp at hd
    | loss | send | refresh | erase | mark | neighbours | relays | routes => simp [Deed.part] at hd

/-- Tuples of a kind change only where the kind is concerned. -/
theorem get?_eq (h : Does ps now r r') {k : TupleKey F} (hp : ∀ p ∈ ps, p.spares k.kind = true) :
    r'.tables.get? k = r.tables.get? k := by
  refine h.keep (P := fun r' => r'.tables.get? k = r.tables.get? k) (fun r' d hd _ hr => ?_) rfl
  rw [r'.perform_tables, Deed.get?_onTables (hp _ hd), hr]

/-- So does a whole table. -/
theorem table_eq {κ τ : Type} [DecidableEq κ] [KeyOrder κ] [Keyed τ κ] (h : Does ps now r r')
    (table : Tables F → Table τ) (key : κ → TupleKey F) (wrap : τ → TimedTuple F)
    (hwrap : ∀ t u, wrap t = wrap u → t = u)
    (hget : ∀ T k, T.get? (key k) = ((table T).get? k).map wrap)
    (hp : ∀ k, ∀ p ∈ ps, p.spares (key k).kind = true) : table r'.tables = table r.tables := by
  refine Table.ext_get? fun k => Option.map_injective hwrap ?_
  rw [← hget, ← hget, h.get?_eq (hp k)]

/-- Tuples of a kind only go where none is stored or refreshed. -/
theorem get?_of_get? (h : Does ps now r r') {k : TupleKey F}
    (hp : ∀ p ∈ ps, p.brings k.kind = false) {t : TimedTuple F}
    (ht : r'.tables.get? k = some t) : r.tables.get? k = some t := by
  refine h.keep (P := fun r' => r'.tables.get? k = some t → r.tables.get? k = some t)
    (fun r' d hd _ hr ht => hr ?_) id ht
  rw [r'.perform_tables] at ht
  exact Deed.get?_of_get?_onTables (hp _ hd) ht

theorem twoHops_eq (h : Does ps now r r') (hp : ∀ p ∈ ps, p.spares .twoHop = true) :
    r'.tables.twoHops = r.tables.twoHops :=
  h.table_eq Tables.twoHops (fun k => .twoHop k.1 k.2) .twoHop (fun _ _ => TimedTuple.twoHop.inj)
    (fun _ _ => rfl) fun _ => hp

theorem selectors_eq (h : Does ps now r r') (hp : ∀ p ∈ ps, p.spares .selector = true) :
    r'.tables.selectors = r.tables.selectors :=
  h.table_eq Tables.selectors .selector .selector (fun _ _ => TimedTuple.selector.inj) (fun _ _ => rfl)
    fun _ => hp

theorem associations_eq (h : Does ps now r r') (hp : ∀ p ∈ ps, p.spares .association = true) :
    r'.tables.associations = r.tables.associations :=
  h.table_eq Tables.associations .association .association (fun _ _ => TimedTuple.association.inj)
    (fun _ _ => rfl) fun _ => hp

theorem duplicates_eq (h : Does ps now r r') (hp : ∀ p ∈ ps, p.spares .duplicate = true) :
    r'.tables.duplicates = r.tables.duplicates :=
  h.table_eq Tables.duplicates (fun k => .duplicate k.1 k.2) .duplicate
    (fun _ _ => TimedTuple.duplicate.inj) (fun _ _ => rfl) fun _ => hp

theorem ansn_eq (h : Does ps now r r') (hp : .stored .selector ∉ ps) (hp' : .dropped .selector ∉ ps) :
    r'.tables.ansn = r.tables.ansn := by
  refine h.keep (P := fun r' => r'.tables.ansn = r.tables.ansn) (fun r' d hd _ hr => ?_) rfl
  rw [r'.perform_tables, Deed.ansn_onTables (fun he => hp (he ▸ hd)) fun he => hp' (he ▸ hd), hr]

/-- Routes change only where they are computed anew. -/
theorem routes_eq (h : Does ps now r r') (hp : .routes ∉ ps) : r'.routes = r.routes := by
  refine h.keep (P := fun r' => r'.routes = r.routes) (fun r' d hd _ hr => ?_) rfl
  rw [← hr]
  cases d with
  | routes => exact absurd hd hp
  | enqueue m =>
    rcases r'.enqueue_cases m with ⟨-, he⟩ | ⟨-, _, _, he⟩ <;> rw [Router.perform, he]
  | _ => rfl

/-- Messages wait only where they are enqueued. -/
theorem outbound_eq (h : Does ps now r r') (hp : .queue ∉ ps) : r'.outbound = r.outbound := by
  refine h.keep (P := fun r' => r'.outbound = r.outbound) (fun r' d hd _ hr => ?_) rfl
  rw [← hr]
  cases d with
  | routes => exact r'.updateRoutes_outbound now
  | enqueue m => exact absurd hd hp
  | _ => rfl

theorem foldl {α : Type} {f : Router F → α → Router F} {l : List α} {r : Router F}
    (hf : ∀ r', Router.SameNode r r' → ∀ x ∈ l, Does ps now r' (f r' x)) :
    Does ps now r (l.foldl f r) := by
  induction l generalizing r with
  | nil => exact .nothing r
  | cons x l ih =>
    have h : Does ps now r (f r x) := hf r (.refl r) x List.mem_cons_self
    exact h.trans (ih fun r' hr' y hy => hf r' (h.sameNode.trans hr') y (List.mem_cons_of_mem _ hy))

/-! What was done before a deed stands in front of it. -/

theorem deed (h : Does ps now r r') (d : Deed F) (p : Part) (hp : p ∈ ps) (hd : d.part = p)
    (hf : d.Fits now r') : Does ps now r (r'.perform now d) :=
  h.trans (.step d (hd ▸ hp) hf (.nothing _))

theorem note (h : Does ps now r r') (n : Notice F) (hp : .journal ∈ ps) :
    Does ps now r (r'.note n) :=
  h.deed (.note n) .journal hp rfl trivial

theorem tell (h : Does ps now r r') (c : Call F) (p : Part) (hp : p ∈ ps) (hd : c.part = p)
    (hc : c.isPlain = true) : Does ps now r (r'.call c) :=
  h.deed (.tell c) p hp hd hc

theorem loss (h : Does ps now r r') (main : Address F) (hp : .loss ∈ ps) :
    Does ps now r (r'.call (.neighbourLost main)) :=
  h.deed (.loss main) .loss hp rfl trivial

theorem send (h : Does ps now r r') (id : InterfaceId) (packet : Octets) (hp : .sending ∈ ps) :
    Does ps now r (r'.call (.broadcast id packet)) :=
  h.deed (.send id packet) .sending hp rfl trivial

theorem neighbours (h : Does ps now r r') (table : Table (NeighbourTuple F))
    (hp : .neighbours ∈ ps) : Does ps now r (r'.onTables ({ · with neighbours := table })) :=
  h.deed (.neighbours table) .neighbours hp rfl trivial

theorem relays (h : Does ps now r r') (mprs : AddressSet F) (hp : .relays ∈ ps) :
    Does ps now r (r'.onTables ({ · with mprs })) :=
  h.deed (.relays mprs) .relays hp rfl trivial

theorem routes (h : Does ps now r r') (hp : .routes ∈ ps) : Does ps now r (r'.updateRoutes now) :=
  h.deed .routes .routes hp rfl trivial

end Does

/-! ## What is read off the calls -/

theorem Call.part_of_isRouting {c : Call F} (h : c.isRouting = true) : c.part = .routes := by
  cases c <;> first | rfl | cases h

namespace Journal

variable {α : Type} {f : Call F → Option α}

/-- What `f` makes of the calls, one by one. -/
def read (f : Call F → Option α) (j : Journal F) : List α := j.calls.toList.filterMap f

theorem read_call (j : Journal F) (c : Call F) : (j.call c).read f = j.read f ++ (f c).toList := by
  rw [read, call, Array.toList_push, List.filterMap_append]
  cases h : f c <;> simp [read, h]

theorem read_of_none {j : Journal F} {c : Call F} (h : f c = none) : (j.call c).read f = j.read f := by
  rw [read_call, h, Option.toList_none, List.append_nil]

theorem read_foldl_of_none {β : Type} {c : β → Call F} (hc : ∀ b, f (c b) = none) (l : List β)
    (j : Journal F) : (l.foldl (fun j b => j.call (c b)) j).read f = j.read f :=
  List.foldlRecOn (motive := fun j' : Journal F => j'.read f = j.read f) l _ rfl
    fun _ hj b _ => (read_of_none (hc b)).trans hj

/-- What is read off calls that concern one part does not depend on timers. -/
theorem isTimeless_read {p : Part} (hf : ∀ c : Call F, c.part ≠ p → f c = none) (hp : p ≠ .journal)
    (l : List α) : IsTimeless fun j : Journal F => j.read f = l :=
  ⟨fun delay timer h => (read_of_none (hf (.schedule _ delay timer) hp.symm)).trans h,
    fun handle h => (read_of_none (hf (.cancel handle) hp.symm)).trans h⟩

theorem Reports.read_eq {j j' : Journal F} (h : Reports j j') {p : Part}
    (hf : ∀ c : Call F, c.part ≠ p → f c = none) (hp : p ≠ .routes) : j'.read f = j.read f := by
  induction h with
  | nothing => rfl
  | note n _ ih => exact ih
  | call c hc _ ih => exact (read_of_none (hf c (Call.part_of_isRouting hc ▸ hp.symm))).trans ih

end Journal

/-- What is read off calls that concern one part changes only where the part is concerned. -/
theorem Does.read_eq {ps : List Part} {now : Time} {r r' : Router F} (h : Does ps now r r') {α : Type}
    {f : Call F → Option α} {p : Part} (hf : ∀ c : Call F, c.part ≠ p → f c = none) (hj : p ≠ .journal)
    (hp : p ∉ ps) : r'.journal.read f = r.journal.read f := by
  refine h.keep (P := fun r' => r'.journal.read f = r.journal.read f) (fun r' d hd _ hr => ?_) rfl
  have ht := Journal.isTimeless_read hf hj (r.journal.read f)
  have htell {c : Call F} (hc : c.part ∈ ps) : (r'.journal.call c).read f = r.journal.read f :=
    (Journal.read_of_none (hf c fun he => hp (he ▸ hc))).trans hr
  cases d with
  | tell | loss | send => exact htell hd
  | insert t => exact ht.insert hr t now
  | erase k => exact ht.erase hr k
  | mark t => exact ht.rearm (s := r'.toStore.overwrite (.link t)) hr _ now
  | routes =>
    obtain ⟨j, hj, hj'⟩ := r'.updateRoutes_eq now
    rw [Router.perform, hj]
    exact (hj'.read_eq hf fun he => hp (he ▸ hd)).trans hr
  | enqueue m =>
    rcases r'.enqueue_cases m with ⟨-, he⟩ | ⟨-, delay, _, he⟩ <;> rw [Router.perform, he]
    · exact hr
    · exact ht.schedule delay .flush hr
  | _ => exact hr

end Manet
