import Mathlib.Data.List.Forall2
import Manet.Proofs.Derived
import Manet.Proofs.Emissions
import Manet.Proofs.ForwardingTable

/-!
# How messages share packets

A sender packs its messages as it likes. The receiver computes its routes after each packet, and
whenever it loses a neighbour, but taking in messages never looks at the routes: two routers that
differ in their routes and in what they reported of them are `Alike`, and whatever takes in a message
makes alike routers of alike ones (`Alike.handleMessage`). Routes follow from the tables, so a packet
and its messages one by one end in the same router (`handlePacket_packing`).
-/

namespace Manet

variable {F : Family}

/-! ## What is left without routes -/

/-- The journal without notices and without calls that concern routes. -/
def Journal.bare (j : Journal F) : Journal F where
  issued := j.issued
  calls := j.calls.filter fun c => !c.isRouting
  notices := #[]

namespace Journal

variable (j : Journal F)

theorem bare_call {c : Call F} (hc : c.isRouting = false) : (j.call c).bare = j.bare.call c := by
  simp only [bare, call]
  rw [Array.filter_push_of_pos (by rw [hc]; rfl) (Array.size_push _)]

theorem bare_call_of_isRouting {c : Call F} (hc : c.isRouting = true) : (j.call c).bare = j.bare := by
  simp only [bare, call]
  rw [Array.filter_push_of_neg (by rw [hc]; exact Bool.false_ne_true) (Array.size_push _)]

theorem bare_schedule (delay : Time) (timer : Timer F) :
    (j.schedule delay timer).bare = j.bare.schedule delay timer :=
  bare_call { j with issued := j.nextHandle } rfl

variable {j} in
theorem Reports.bare_eq {j' : Journal F} (h : Reports j j') : j'.bare = j.bare := by
  induction h with
  | nothing => rfl
  | note n _ ih => exact ih
  | call c hc _ ih => exact (bare_call_of_isRouting _ hc).trans ih

end Journal

/-- The store without what the journal says of routes. -/
def Store.bare (s : Store F) : Store F := { s with journal := s.journal.bare }

namespace Store

variable (s : Store F)

theorem bare_disarm (k : TupleKey F) : (s.disarm k).bare = s.bare.disarm k := by
  unfold disarm
  rw [show s.bare.book = s.book from rfl]
  split
  · rfl
  · simp only [bare]
    rw [Journal.bare_call _ rfl]

theorem bare_arm (k : TupleKey F) (delay : Time) : (s.arm k delay).bare = s.bare.arm k delay := by
  unfold arm
  rw [← bare_disarm]
  simp only [bare]
  rw [Journal.bare_schedule]
  rfl

theorem bare_watch (k : TupleKey F) (deadline : Option Time) (now : Time) :
    (s.watch k deadline now).bare = s.bare.watch k deadline now := by
  cases deadline with
  | none => exact s.bare_disarm k
  | some due => exact s.bare_arm k (due - now)

theorem bare_insert (t : TimedTuple F) (now : Time) :
    (s.insert t now).bare = s.bare.insert t now := by
  unfold insert
  rw [← bare_watch]
  rfl

theorem bare_erase (k : TupleKey F) : (s.erase k).bare = s.bare.erase k := by
  unfold erase
  rw [show s.bare.tables = s.tables from rfl]
  split
  · rfl
  · rw [← bare_disarm]
    rfl

theorem bare_eraseAll (ks : List (TupleKey F)) : (s.eraseAll ks).bare = s.bare.eraseAll ks := by
  induction ks generalizing s with
  | nil => rfl
  | cons k ks ih => exact (ih (s.erase k)).trans (congrArg (eraseAll · ks) (s.bare_erase k))

end Store

namespace Router

/-- The router without its routes and without what it reported of them. -/
def bare (r : Router F) : Router F := { r with toStore := r.toStore.bare, routes := ∅ }

/-- The routers differ in their routes at most, and in what they reported of them. -/
def Alike (r r' : Router F) : Prop := r.bare = r'.bare

namespace Alike

variable {r r' r'' : Router F}

theorem refl (r : Router F) : Alike r r := rfl

theorem symm (h : Alike r r') : Alike r' r := Eq.symm h

theorem trans (h : Alike r r') (h' : Alike r' r'') : Alike r r'' := Eq.trans h h'

/-! What alike routers agree on. -/

theorem store_bare (h : Alike r r') : r.toStore.bare = r'.toStore.bare := congrArg (·.toStore) h

theorem tables (h : Alike r r') : r.tables = r'.tables := congrArg (·.tables) h

theorem params (h : Alike r r') : r.params = r'.params := congrArg (·.params) h

theorem address (h : Alike r r') : r.address = r'.address := congrArg (·.address) h

theorem localAddresses (h : Alike r r') : r.localAddresses = r'.localAddresses :=
  congrArg (·.localAddresses) h

theorem isLocal (h : Alike r r') (a : Address F) : r.isLocal a = r'.isLocal a :=
  congrArg (·.isLocal a) h

theorem mainAddress (h : Alike r r') (a : Address F) : r.mainAddress a = r'.mainAddress a :=
  congrArg (·.mainAddress a) h

theorem hears (h : Alike r r') (a : Address F) (now : Time) : r.hears a now = r'.hears a now :=
  congrArg (·.hears a now) h

theorem relaysFor (h : Alike r r') (a : Address F) (now : Time) :
    r.relaysFor a now = r'.relaysFor a now :=
  congrArg (·.relaysFor a now) h

theorem isReached (h : Alike r r') (main : Address F) (now : Time) :
    r.isReached main now = r'.isReached main now :=
  congrArg (·.isReached main now) h

theorem hasSymmetricNeighbour (h : Alike r r') (main : Address F) :
    r.hasSymmetricNeighbour main = r'.hasSymmetricNeighbour main :=
  congrArg (·.hasSymmetricNeighbour main) h

theorem hearsNode (h : Alike r r') (main : Address F) (now : Time) :
    r.hearsNode main now = r'.hearsNode main now :=
  congrArg (·.hearsNode main now) h

theorem isSelectedBy (h : Alike r r') (blocks : List (HelloBlock F)) :
    r.isSelectedBy blocks = r'.isSelectedBy blocks :=
  congrArg (·.isSelectedBy blocks) h

/-! What is done to one is done to the other. -/

theorem note_self (r : Router F) (n : Notice F) : Alike (r.note n) r := rfl

theorem note (h : Alike r r') (n n' : Notice F) : Alike (r.note n) (r'.note n') := h

theorem onStore {f : Store F → Store F} (h : Alike r r') (hf : ∀ s, (f s).bare = f s.bare) :
    Alike (r.onStore f) (r'.onStore f) := by
  have hr (r : Router F) : (r.onStore f).bare = { r.bare with toStore := f r.toStore.bare } := by
    rw [← hf]
    rfl
  rw [Alike, hr, hr, h.store_bare, h]

theorem insert (h : Alike r r') (t : TimedTuple F) (now : Time) :
    Alike (r.onStore (·.insert t now)) (r'.onStore (·.insert t now)) :=
  h.onStore fun s => s.bare_insert t now

theorem overwrite (h : Alike r r') (t : TimedTuple F) :
    Alike (r.onStore (·.overwrite t)) (r'.onStore (·.overwrite t)) :=
  h.onStore fun _ => rfl

theorem erase (h : Alike r r') (k : TupleKey F) :
    Alike (r.onStore (·.erase k)) (r'.onStore (·.erase k)) :=
  h.onStore fun s => s.bare_erase k

theorem eraseAll (h : Alike r r') (ks : Tables F → List (TupleKey F)) :
    Alike (r.onStore fun s => s.eraseAll (ks s.tables)) (r'.onStore fun s => s.eraseAll (ks s.tables)) :=
  h.onStore fun s => s.bare_eraseAll (ks s.tables)

theorem onTables (h : Alike r r') (f : Tables F → Tables F) :
    Alike (r.onTables f) (r'.onTables f) :=
  congrArg (fun r : Router F => r.onTables f) h

theorem call (h : Alike r r') {c : Call F} (hc : c.isRouting = false) :
    Alike (r.call c) (r'.call c) := by
  have hr (r : Router F) : (r.call c).bare = r.bare.call c := by
    simp only [bare, Router.call, Store.bare]
    rw [Journal.bare_call _ hc]
  rw [Alike, hr, hr, h]

/-- Computing the routes anew makes no difference. -/
theorem updateRoutes_self (r : Router F) (now : Time) : Alike (r.updateRoutes now) r := by
  obtain ⟨j, hj, hr⟩ := r.updateRoutes_eq now
  rw [hj, Alike, bare, bare, Store.bare, Store.bare, hr.bare_eq]

theorem updateRoutes (h : Alike r r') (now : Time) :
    Alike (r.updateRoutes now) (r'.updateRoutes now) :=
  (updateRoutes_self r now).trans (h.trans (updateRoutes_self r' now).symm)

theorem foldl {α : Type} {f : Router F → α → Router F}
    (hf : ∀ {r r' : Router F} (x), Alike r r' → Alike (f r x) (f r' x)) (h : Alike r r') (l : List α) :
    Alike (l.foldl f r) (l.foldl f r') := by
  induction l generalizing r r' with
  | nil => exact h
  | cons x l ih => exact ih (hf x h)

/-! ### The neighbourhood -/

theorem updateRelays (h : Alike r r') : Alike r.updateRelays r'.updateRelays := by
  unfold Router.updateRelays
  rw [h.tables, h.address]
  dsimp only
  split
  · exact h
  · exact ((h.note _ _).call rfl).onTables _

theorem updateNeighbour (h : Alike r r') (link : LinkTuple F) (w : Option Willingness) (now : Time) :
    (r.updateNeighbour link w now).1 = (r'.updateNeighbour link w now).1 ∧
      Alike (r.updateNeighbour link w now).2 (r'.updateNeighbour link w now).2 := by
  unfold Router.updateNeighbour
  dsimp only
  rw [h.mainAddress, h.isReached, h.hasSymmetricNeighbour]
  split
  · exact ⟨rfl, ((h.onTables _).note _ _).eraseAll fun T =>
      twoHopKeys T fun t => t.twoHop = r'.mainAddress link.neighbour⟩
  · exact ⟨rfl, h.onTables _⟩

theorem forgetNeighbour (h : Alike r r') (main : Address F) (now : Time) :
    Alike (r.forgetNeighbour main now) (r'.forgetNeighbour main now) :=
  ((((h.eraseAll fun T => twoHopKeys T fun t => t.neighbour = main).erase _).updateRelays).updateRoutes
    now).call rfl

theorem checkNeighbour (h : Alike r r') (link : LinkTuple F) (w : Option Willingness) (now : Time) :
    Alike (r.checkNeighbour link w now) (r'.checkNeighbour link w now) := by
  obtain ⟨hlost, hu⟩ := h.updateNeighbour link w now
  unfold Router.checkNeighbour
  dsimp only
  rw [hlost, hu.mainAddress]
  split
  · exact (hu.note _ _).forgetNeighbour _ now
  · exact hu

/-! ### HELLO, TC and MID messages -/

theorem senseHello (h : Alike r r') (validity : Time) (w : Willingness) (blocks : List (HelloBlock F))
    (receiver sender : Address F) (now : Time) :
    Alike (r.senseHello validity w blocks receiver sender now)
      (r'.senseHello validity w blocks receiver sender now) := by
  unfold Router.senseHello
  rw [h.tables, h.params]
  dsimp only
  split
  · exact ((h.note _ _).insert _ now).checkNeighbour _ _ now
  · split
    · exact (h.overwrite _).checkNeighbour _ _ now
    · exact h.overwrite _

theorem recordWillingness (h : Alike r r') (originator : Address F) (w : Willingness) :
    Alike (r.recordWillingness originator w) (r'.recordWillingness originator w) := by
  unfold Router.recordWillingness
  rw [h.tables]
  split
  · exact h
  · exact h.onTables _

theorem recordTwoHop (originator : Address F) (validUntil now : Time)
    (said : NeighbourType × Address F) (h : Alike r r') :
    Alike (recordTwoHop originator validUntil now r said)
      (recordTwoHop originator validUntil now r' said) := by
  unfold Router.recordTwoHop
  dsimp only
  rw [h.mainAddress, h.isLocal, h.hasSymmetricNeighbour, h.tables]
  split
  · exact h.erase _
  all_goals
    split
    · exact h
    · split
      · exact h.overwrite _
      · exact (h.note _ _).insert _ now

theorem recordTwoHops (h : Alike r r') (originator : Address F) (validity : Time)
    (blocks : List (HelloBlock F)) (now : Time) :
    Alike (r.recordTwoHops originator validity blocks now)
      (r'.recordTwoHops originator validity blocks now) := by
  unfold Router.recordTwoHops
  rw [h.hearsNode]
  split
  · exact foldl (recordTwoHop originator (now + validity) now) h _
  · exact h

theorem recordSelector (h : Alike r r') (originator : Address F) (validity : Time)
    (blocks : List (HelloBlock F)) (now : Time) :
    Alike (r.recordSelector originator validity blocks now)
      (r'.recordSelector originator validity blocks now) := by
  unfold Router.recordSelector
  rw [h.isSelectedBy, h.tables]
  split
  · split
    · exact h.overwrite _
    · exact (h.note _ _).insert _ now
  · exact h

theorem processHello (h : Alike r r') (originator : Address F) (validity : Time) (w : Willingness)
    (blocks : List (HelloBlock F)) (receiver sender : Address F) (now : Time) :
    Alike (r.processHello originator validity w blocks receiver sender now)
      (r'.processHello originator validity w blocks receiver sender now) :=
  ((((h.senseHello validity w blocks receiver sender now).recordWillingness originator w).recordTwoHops
    originator validity blocks now).updateRelays).recordSelector originator validity blocks now

theorem recordAdvertised (originator : Address F) (ansn : SeqNum) (validUntil now : Time)
    (dest : Address F) (h : Alike r r') :
    Alike (recordAdvertised originator ansn validUntil now r dest)
      (recordAdvertised originator ansn validUntil now r' dest) := by
  unfold Router.recordAdvertised
  rw [h.tables]
  split
  · exact h.overwrite _
  · exact h.insert _ now

theorem processTc (h : Alike r r') (originator : Address F) (validity : Time) (ansn : SeqNum)
    (neighbours : List (Address F)) (sender : Address F) (now : Time) :
    Alike (r.processTc originator validity ansn neighbours sender now)
      (r'.processTc originator validity ansn neighbours sender now) := by
  unfold Router.processTc
  rw [h.hears, h.tables]
  split
  · split
    · exact h.note _ _
    · exact foldl (recordAdvertised originator ansn (now + validity) now)
        (h.eraseAll fun T => advertisedKeys T originator fun t => SeqNum.newer ansn t.seqno) _
  · exact h

theorem recordInterface (originator : Address F) (validUntil now : Time) (iface : Address F)
    (h : Alike r r') :
    Alike (recordInterface originator validUntil now r iface)
      (recordInterface originator validUntil now r' iface) := by
  unfold Router.recordInterface
  rw [h.isLocal, h.tables]
  split
  · exact h
  · split
    · exact h.overwrite _
    · exact (h.note _ _).insert _ now

theorem processMid (h : Alike r r') (originator : Address F) (validity : Time)
    (interfaces : List (Address F)) (sender : Address F) (now : Time) :
    Alike (r.processMid originator validity interfaces sender now)
      (r'.processMid originator validity interfaces sender now) := by
  unfold Router.processMid
  rw [h.hears]
  split
  · exact foldl (recordInterface originator (now + validity) now) h _
  · exact h

theorem process (h : Alike r r') (m : Message F) (receiver sender : Address F) (now : Time) :
    Alike (r.process m receiver sender now) (r'.process m receiver sender now) := by
  unfold Router.process
  split
  · exact h.processHello ..
  · exact h.processTc ..
  · exact h.processMid ..
  · exact h.note _ _

/-! ### Relaying -/

theorem enqueue (h : Alike r r') (m : Message F) : Alike (r.enqueue m) (r'.enqueue m) := by
  have hr (r : Router F) : (r.enqueue m).bare = r.bare.enqueue m := by
    unfold Router.enqueue
    dsimp only
    rw [show r.bare.flushTimer = r.flushTimer from rfl]
    split
    · rfl
    · simp only [bare, drawJitter, schedule, Store.bare]
      rw [Journal.bare_schedule]
      rfl
  rw [Alike, hr, hr, h]

theorem recordSeen (h : Alike r r') (m : Message F) (receiver : Address F) (retransmitted : Bool)
    (now : Time) :
    Alike (r.recordSeen m receiver retransmitted now) (r'.recordSeen m receiver retransmitted now) := by
  unfold Router.recordSeen
  rw [h.tables, h.params]
  dsimp only
  split
  · exact h.overwrite _
  · exact h.insert _ now

theorem forward (h : Alike r r') (m : Message F) (receiver sender : Address F) (now : Time) :
    Alike (r.forward m receiver sender now) (r'.forward m receiver sender now) := by
  unfold Router.forward
  rw [h.hears, h.tables, h.relaysFor]
  split
  · split
    · exact ((h.note _ _).enqueue _).recordSeen m receiver true now
    · exact h.recordSeen m receiver false now
  · exact h

/-- Taking in a message never depends on the routes. -/
theorem handleMessage {receiver sender : Address F} {now : Time} (m : Message F) (h : Alike r r') :
    Alike (handleMessage receiver sender now r m) (handleMessage receiver sender now r' m) := by
  unfold Router.handleMessage
  rw [h.isLocal, h.tables]
  split
  · exact h
  · split
    · split
      · exact h
      · exact h.forward m receiver sender now
    · dsimp only
      split
      · exact h.process m receiver sender now
      · exact (h.process m receiver sender now).forward m receiver sender now

end Alike

end Router

/-! ## What is called for -/

/-- What was called for, and perhaps more. -/
def Journal.Has (j : Journal F) (cs : List (Call F)) : Prop := cs <+: j.calls.toList

namespace Journal.Has

variable {j j' : Journal F} {cs : List (Call F)}

theorem call (h : j.Has cs) (c : Call F) : (j.call c).Has cs := by
  rw [Has, Journal.call, Array.toList_push]
  exact h.trans (List.prefix_append _ _)

theorem schedule (h : j.Has cs) (delay : Time) (timer : Timer F) : (j.schedule delay timer).Has cs :=
  call (j := { j with issued := j.nextHandle }) h _

theorem isTimeless (cs : List (Call F)) : IsTimeless fun j => j.Has cs :=
  ⟨fun delay timer h => h.schedule delay timer, fun handle h => h.call (.cancel handle)⟩

theorem reports (hj : j.Has cs) (h : Reports j j') : j'.Has cs := by
  induction h with
  | nothing => exact hj
  | note n _ ih => exact ih
  | call c _ _ ih => exact ih.call c

end Journal.Has

/-- Deeds enter calls behind those that were entered. -/
theorem Does.calls_grow {ps : List Part} {now : Time} {r r' : Router F} (h : Does ps now r r') :
    r'.journal.Has r.journal.calls.toList := by
  refine h.keep (P := fun r' => r'.journal.Has r.journal.calls.toList) (fun r' d _ _ hr => ?_)
    (List.prefix_refl _)
  have htime := Journal.Has.isTimeless r.journal.calls.toList
  cases d with
  | tell c => exact hr.call c
  | loss main => exact hr.call _
  | send id packet => exact hr.call _
  | insert t => exact htime.insert hr t now
  | erase k => exact htime.erase hr k
  | mark t => exact htime.rearm (s := r'.toStore.overwrite (.link t)) hr _ now
  | routes =>
    obtain ⟨j, hj, hreports⟩ := r'.updateRoutes_eq now
    rw [Router.perform, hj]
    exact hr.reports hreports
  | enqueue m =>
    rcases r'.enqueue_cases m with ⟨-, he⟩ | ⟨-, delay, _, he⟩ <;> rw [Router.perform, he]
    · exact hr
    · exact hr.schedule delay .flush
  | _ => exact hr

namespace Router

variable {r r' : Router F} {now : Time}

/-- The calls lead the forwarding table of the host from the routes of `r` to those of `r'`. -/
def Reroutes (r r' : Router F) (cs : List (Call F)) : Prop :=
  cs.foldlM ForwardingTable.carryOut? (ForwardingTable.ofRoutes r.routes) =
    some (ForwardingTable.ofRoutes r'.routes)

theorem Mirrored.exists_reroutes {ps : List Part} (h : r.Mirrored) (hd : Does ps now r r') :
    ∃ cs, r'.journal.calls.toList = r.journal.calls.toList ++ cs ∧ Reroutes r r' cs := by
  obtain ⟨cs, hcs⟩ := hd.calls_grow
  have h' : r'.Mirrored := h.does hd
  rw [Mirrored, Journal.Mirrors, ForwardingTable.replay] at h h'
  rw [← hcs, List.foldlM_append, h] at h'
  exact ⟨cs, hcs.symm, h'⟩

/-- Alike routers whose routes are up to date differ in what they reported only. -/
theorem Alike.eq_of_routesCurrent (h : Alike r r') (hr : r.RoutesCurrent now)
    (hr' : r'.RoutesCurrent now) : r' = { r with journal := r'.journal } := by
  have hroutes : r'.routes = r.routes := by
    rw [hr', hr, h.tables, h.localAddresses]
  obtain ⟨⟨tables, book, journal⟩, address, params, routes, interfaces, outbound, helloTimer, tcTimer,
    midTimer, flushTimer, packetSeqno, messageSeqno, running, entropy⟩ := r
  obtain ⟨⟨_, _, _⟩, _, _, _, _, _, _, _, _, _, _, _, _, _⟩ := r'
  cases hroutes
  simp only [Alike, bare, Store.bare, mk.injEq, Store.mk.injEq] at h ⊢
  simp [h]

/-- Alike routers that entered calls after the same ones entered the same ones but for routes. -/
theorem Alike.filter_eq (h : Alike r r') {calls cs cs' : List (Call F)}
    (hr : r.journal.calls.toList = calls ++ cs) (hr' : r'.journal.calls.toList = calls ++ cs') :
    (cs.filter fun c => !c.isRouting) = cs'.filter fun c => !c.isRouting := by
  have hcalls : r.journal.bare.calls.toList = r'.journal.bare.calls.toList :=
    congrArg (·.journal.calls.toList) h
  simp only [Journal.bare, Array.toList_filter, hr, hr', List.filter_append] at hcalls
  exact List.append_cancel_left hcalls

/-! ## Packets -/

/-- Takes in datagrams one after the other. -/
def handlePackets (r : Router F) (id : InterfaceId) (sender : Address F) (datagrams : List Octets)
    (now : Time) : Except PacketError (Router F) :=
  datagrams.foldlM (fun r datagram => r.handlePacket id sender datagram now) r

end Router

theorem Packet.messages_ne_nil_of_decode {datagram : Octets} {p : Packet F}
    (hp : Packet.decode datagram = .ok p) : p.messages ≠ [] := by
  obtain ⟨w, -, -, hw, rfl⟩ := exists_of_decode hp
  exact fun hnil => hw.messages_ne_nil (List.map_eq_nil_iff.mp hnil)

/-- A datagram that holds one message. -/
def Packet.IsAlone (datagram : Octets) (m : Message F) : Prop :=
  ∃ seqno, Packet.decode datagram = .ok { seqno, messages := [m] }

theorem size_le_messagesSize {ms : List (Message F)} {m : Message F} (hm : m ∈ ms) :
    m.size ≤ messagesSize ms := by
  induction ms with
  | nil => cases hm
  | cons m' ms ih =>
    rcases List.mem_cons.mp hm with rfl | hm
    · exact Nat.le_add_right ..
    · exact Nat.le_trans (ih hm) (Nat.le_add_left ..)

/-- A message that came with others can be sent alone. -/
theorem Packet.isAlone_toOctets {whole : Octets} {p : Packet F} (hp : Packet.decode whole = .ok p)
    {m : Message F} (hm : m ∈ p.messages) : IsAlone (toOctets { seqno := 0, messages := [m] }) m := by
  obtain ⟨hsize, hmax, -⟩ := reencode_eq_take_iff hp
  have hone : size { seqno := 0, messages := [m] } ≤ maxSize :=
    Nat.le_trans (Nat.add_le_add_left (size_le_messagesSize hm) _) (Nat.le_trans hsize hmax)
  obtain ⟨octets, hencode, -, hread⟩ := decode_encode_append { seqno := 0, messages := [m] }
    (List.cons_ne_nil _ _) hone (List.forall_mem_singleton.mpr (kindFits_of_decode hp m hm))
  cases (if_pos hone).symm.trans hencode
  exact ⟨0, List.append_nil (toOctets _) ▸ hread []⟩

namespace Router

variable {r : Router F} {id : InterfaceId} {receiver sender : Address F} {now : Time}

/-- Datagrams with one message each do what the messages do, but that they make the router compute its
routes each time. -/
theorem handlePackets_of_isAlone {datagrams : List Octets} {ms : List (Message F)}
    (h : List.Forall₂ Packet.IsAlone datagrams ms) (hr : r.running = true)
    (hid : r.interfaceAddress? id = some receiver) :
    ∃ r', r.handlePackets id sender datagrams now = .ok r' ∧ Does reception now r r' ∧
      Alike (ms.foldl (handleMessage receiver sender now) r) r' ∧
      (ms ≠ [] → r'.RoutesCurrent now) := by
  induction h generalizing r with
  | nil => exact ⟨r, rfl, .nothing r, .refl r, fun h => absurd rfl h⟩
  | @cons datagram m datagrams ms hd hds ih =>
    obtain ⟨seqno, hd⟩ := hd
    have hone : r.handlePacket id sender datagram now = .ok _ := handlePacket_of_decode hr hid hd
    have hdoes := handlePacket_does hone
    have hnode := hdoes.sameNode
    obtain ⟨r', hrest, hdoes', halike, hcurrent⟩ := ih (hnode.running.trans hr) (by
      rw [interfaceAddress?, hnode.interfaces]
      exact hid)
    refine ⟨r', ?_, hdoes.trans hdoes', .trans (.foldl Alike.handleMessage ?_ ms) halike, fun _ => ?_⟩
    · rw [handlePackets, List.foldlM_cons, hone]
      exact hrest
    · exact .trans (.handleMessage m (Alike.note_self r _).symm) (Alike.updateRoutes_self _ now).symm
    · cases hds with
      | nil =>
        cases hrest
        exact updateRoutes_routesCurrent _ now
      | cons => exact hcurrent (List.cons_ne_nil _ _)

/-- It makes no difference how messages are packed. Whatever run led to it, a router that takes in a
packet ends in the same state as if its messages had come in packets of their own. The same is called
for in the same order, as to timers, lost neighbours and relays, but not as to routes: there the calls
have the same effect. -/
theorem handlePacket_packing {t : Time} (h : r.Reachable t) (hr : r.running = true)
    (hid : r.interfaceAddress? id = some receiver) {whole : Octets} {p : Packet F}
    (hp : Packet.decode whole = .ok p) :
    (∃ datagrams, List.Forall₂ Packet.IsAlone datagrams p.messages) ∧
    ∃ r', r.handlePacket id sender whole now = .ok r' ∧
      ∀ datagrams, List.Forall₂ Packet.IsAlone datagrams p.messages →
        ∃ r'', r.handlePackets id sender datagrams now = .ok r'' ∧
          r'' = { r' with journal := r''.journal } ∧ r''.journal.issued = r'.journal.issued ∧
          ∃ cs' cs'', r'.journal.calls.toList = r.journal.calls.toList ++ cs' ∧
            r''.journal.calls.toList = r.journal.calls.toList ++ cs'' ∧
            (cs'.filter fun c => !c.isRouting) = (cs''.filter fun c => !c.isRouting) ∧
            Reroutes r r' cs' ∧ Reroutes r r' cs'' := by
  have hwhole : r.handlePacket id sender whole now = .ok _ := handlePacket_of_decode hr hid hp
  refine ⟨⟨p.messages.map fun m => Packet.toOctets { seqno := 0, messages := [m] }, ?_⟩, _, hwhole,
    fun datagrams hds => ?_⟩
  · rw [List.forall₂_map_left_iff, List.forall₂_same]
    exact fun m hm => Packet.isAlone_toOctets hp hm
  · obtain ⟨r'', hparts, hdoes, halike, hcurrent⟩ :=
      @handlePackets_of_isAlone F r id receiver sender now _ _ hds hr hid
    have hboth := (Alike.updateRoutes_self _ now).trans (.trans (.foldl Alike.handleMessage
      (Alike.note_self r (.packetReceived p.seqno p.messages.length sender)) p.messages) halike)
    have hm := Mirrored.of_reachable h
    obtain ⟨cs', hcs', hroutes'⟩ := hm.exists_reroutes (handlePacket_does hwhole)
    obtain ⟨cs'', hcs'', hroutes''⟩ := hm.exists_reroutes hdoes
    have heq := hboth.eq_of_routesCurrent (updateRoutes_routesCurrent _ now)
      (hcurrent (Packet.messages_ne_nil_of_decode hp))
    refine ⟨r'', hparts, heq, ?_, cs', cs'', hcs', hcs'', hboth.filter_eq hcs' hcs'', hroutes', ?_⟩
    · exact (congrArg (·.journal.issued) hboth).symm
    · have hsame : r''.routes = _ := congrArg (·.routes) heq
      rwa [Reroutes, hsame] at hroutes''

/-- A HELLO of 10.0.0.2 that calls the link to 10.0.0.1 lost, and one that selects 10.0.0.1 as relay. -/
def wavering : Packet .ipv4 where
  seqno := 1
  messages :=
    [⟨⟨0x8a⟩, .ofNat 0x0a000002, 1, 0, 1, .hello ⟨5⟩ .standard
        [⟨⟨.lost, .notNeighbour, LinkCode.consistent_lost _⟩, [sampleAddress]⟩]⟩,
      ⟨⟨0x8a⟩, .ofNat 0x0a000002, 1, 0, 2, .hello ⟨5⟩ .standard
        [⟨⟨.symmetric, .mpr, LinkCode.consistent_mpr _⟩, [sampleAddress, .ofNat 0x0a000003]⟩]⟩]

theorem handlePacket_packing_wavering :
    let alone := wavering.messages.map fun m => Packet.toOctets { seqno := 0, messages := [m] }
    sample.Reachable 0 ∧ sample.running = true ∧
      sample.interfaceAddress? (.number 0) = some sampleAddress ∧
      Packet.decode wavering.toOctets = .ok wavering ∧
      ∃ r' r'', sample.handlePacket (.number 0) (.ofNat 0x0a000002) wavering.toOctets 1 = .ok r' ∧
        sample.handlePackets (.number 0) (.ofNat 0x0a000002) alone 1 = .ok r'' ∧
        r'' = { r' with journal := r''.journal } := by
  have hr : sample.running = true := by decide +kernel
  have hid : sample.interfaceAddress? (.number 0) = some sampleAddress := by decide +kernel
  have hp : Packet.decode wavering.toOctets = .ok wavering :=
    Packet.decode_eq_ok_of_toOption (by decide +kernel)
  obtain ⟨-, r', hr', hparts⟩ :=
    @handlePacket_packing _ _ _ _ (.ofNat 0x0a000002) 1 _ sample_reachable hr hid _ _ hp
  obtain ⟨r'', hr'', heq, -⟩ := hparts (wavering.messages.map fun m =>
      Packet.toOctets { seqno := 0, messages := [m] }) (by
    rw [List.forall₂_map_left_iff, List.forall₂_same]
    exact fun m hm => Packet.isAlone_toOctets hp hm)
  exact ⟨sample_reachable, hr, hid, hp, r', r'', hr', hr'', heq⟩

end Router

end Manet
