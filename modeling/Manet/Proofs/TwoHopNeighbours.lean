import Manet.Proofs.LinkEnds
import Manet.Proofs.Reception

/-!
# Nodes two hops away

A node is two hops away only as long as it is neither this node nor a symmetric neighbour of it.
Recording a two-hop tuple asks for this, and a neighbour that becomes symmetric takes the tuples that
name it along, so that it holds throughout every run (`Reachable.twoHop_ne`).
-/

namespace Manet

variable {F : Family}

/-- No node is a symmetric neighbour or two hops away in `T'` that is not so in `T`. -/
structure Tables.Narrows (T T' : Tables F) : Prop where
  neighbours : ∀ n' ∈ T'.neighbours, n'.symmetric = true →
    ∃ n ∈ T.neighbours, n.symmetric = true ∧ n.main = n'.main
  twoHops : ∀ t' ∈ T'.twoHops, ∃ t ∈ T.twoHops, t.twoHop = t'.twoHop

theorem Tables.Narrows.of_subset {T T' : Tables F} (hn : T'.neighbours = T.neighbours)
    (ht : ∀ t ∈ T'.twoHops, t ∈ T.twoHops) : Narrows T T' where
  neighbours n hmem hs := ⟨n, hn ▸ hmem, hs, rfl⟩
  twoHops t hmem := ⟨t, ht t hmem, rfl⟩

theorem Tables.narrows_drop (T : Tables F) (k : TupleKey F) : Narrows T (T.drop k) := by
  cases k with
  | twoHop a b => exact .of_subset rfl fun _ ht => (Table.mem_erase.mp ht).1
  | _ => exact .of_subset rfl fun _ ht => ht

/-- No tuple says that this node or one of its symmetric neighbours is two hops away. -/
def Router.TwoHopsApart (r : Router F) : Prop :=
  ∀ t ∈ r.tables.twoHops,
    t.twoHop ≠ r.address ∧ ∀ n ∈ r.tables.neighbours, n.symmetric = true → t.twoHop ≠ n.main

theorem Router.TwoHopsApart.mono {r r' : Router F} (h : r.TwoHopsApart) (ha : r'.address = r.address)
    (hn : Tables.Narrows r.tables r'.tables) : r'.TwoHopsApart := by
  intro t' ht'
  obtain ⟨t, ht, htwoHop⟩ := hn.twoHops t' ht'
  obtain ⟨hself, hneighbours⟩ := h t ht
  rw [← htwoHop]
  refine ⟨ha ▸ hself, fun n' hn' hs' => ?_⟩
  obtain ⟨n, hmem, hs, hmain⟩ := hn.neighbours n' hn' hs'
  exact hmain ▸ hneighbours n hmem hs

/-! ## Frames -/

/-- A deed that neither derives neighbours nor stores a two-hop tuple brings none of either. -/
theorem Deed.narrows {now : Time} {r : Router F} {d : Deed F} (hd : d.part ≠ .neighbours)
    (hd' : d.part ≠ .stored .twoHop) (hf : d.Fits now r) :
    Tables.Narrows r.tables (d.onTables r.tables) := by
  have hneighbours : (d.onTables r.tables).neighbours = r.tables.neighbours := Deed.onTables_neighbours hd _
  cases d with
  | insert t =>
    cases t with
    | twoHop t => exact absurd rfl hd'
    | _ => exact .of_subset hneighbours fun _ ht => ht
  | refresh t =>
    cases t with
    | twoHop t =>
      obtain ⟨old, hold, -⟩ := hf
      refine ⟨fun n hn hs => ⟨n, hn, hs, rfl⟩, fun t' ht' => ?_⟩
      rcases Table.mem_insert.mp ht' with rfl | ⟨ht', -⟩
      · obtain ⟨u, hu, -⟩ := Option.map_eq_some_iff.mp hold
        obtain ⟨hmem, hkey⟩ := Table.get?_eq_some_iff.mp hu
        exact ⟨u, hmem, (Prod.mk.inj hkey).2⟩
      · exact ⟨t', ht', rfl⟩
    | _ => exact .of_subset hneighbours fun _ ht => ht
  | erase k =>
    unfold Deed.onTables
    dsimp only
    split
    · exact r.tables.narrows_drop k
    · exact .of_subset rfl fun _ ht => ht
  | _ => exact .of_subset hneighbours fun _ ht => ht

theorem Router.TwoHopsApart.perform {r : Router F} (h : r.TwoHopsApart) {now : Time} {d : Deed F}
    (hd : d.part ≠ .neighbours) (hd' : d.part ≠ .stored .twoHop) (hf : d.Fits now r) :
    (r.perform now d).TwoHopsApart := by
  refine h.mono (r.perform_sameNode now d).address ?_
  rw [r.perform_tables]
  exact Deed.narrows hd hd' hf

theorem Does.twoHopsApart {ps : List Part} {now : Time} {r r' : Router F} (h : Does ps now r r')
    (hp : .neighbours ∉ ps) (hp' : .stored .twoHop ∉ ps) (hr : r.TwoHopsApart) : r'.TwoHopsApart :=
  h.keep (fun _ _ hd hf hr => hr.perform (fun he => hp (he ▸ hd)) (fun he => hp' (he ▸ hd)) hf) hr

/-! ## Erasing -/

namespace Router

variable {now : Time} {r : Router F}

/-- What is left of the two-hop tuples when those that satisfy `p` were erased. -/
theorem mem_eraseTwoHops {p : TwoHopTuple F → Bool} {t : TwoHopTuple F}
    (h : t ∈ (r.onStore fun s => s.eraseAll (twoHopKeys s.tables p)).tables.twoHops) :
    t ∈ r.tables.twoHops ∧ p t = false := by
  have hget : (r.toStore.eraseAll (twoHopKeys r.tables p)).tables.get? (.twoHop t.neighbour t.twoHop) =
      some (.twoHop t) := Tables.get?_key_twoHop (Table.get?_eq_some_iff.mpr ⟨h, rfl⟩)
  rw [Store.get?_eraseAll] at hget
  split at hget
  · cases hget
  · rename_i hkey
    obtain ⟨u, hu, he⟩ := Option.map_eq_some_iff.mp hget
    cases he
    have hmem : t ∈ r.tables.twoHops := (Table.get?_eq_some_iff.mp hu).1
    refine ⟨hmem, Bool.eq_false_iff.mpr fun hp => hkey ?_⟩
    exact List.mem_map.mpr ⟨t, List.mem_filter.mpr ⟨hmem, hp⟩, rfl⟩

theorem neighbours_eraseTwoHops (p : TwoHopTuple F → Bool) (r : Router F) :
    (r.onStore fun s => s.eraseAll (twoHopKeys s.tables p)).tables.neighbours = r.tables.neighbours := by
  have h : Does [.dropped .twoHop] 0 r (r.onStore fun s => s.eraseAll (twoHopKeys s.tables p)) :=
    eraseTwoHops_does List.mem_cons_self p r
  exact h.neighbours_eq (by decide)

/-! ## Neighbours -/

/-- Only the node at the end of the link may become a symmetric neighbour. -/
theorem mem_storeNeighbour {T : Tables F} {link : LinkTuple F} {w : Option Willingness} {symmetric : Bool}
    {n : NeighbourTuple F} (h : n ∈ (storeNeighbour T link w symmetric).neighbours) :
    n.main = T.mainAddress link.neighbour ∧ n.symmetric = symmetric ∨ n ∈ T.neighbours := by
  unfold storeNeighbour at h
  dsimp only at h
  split at h
  · rename_i n₀ hn₀
    rcases Table.mem_insert.mp h with rfl | ⟨hmem, -⟩
    · exact .inl ⟨(Table.get?_eq_some_iff.mp hn₀).2, rfl⟩
    · exact .inr hmem
  · rcases Table.mem_insert.mp h with rfl | ⟨hmem, -⟩
    · exact .inl ⟨rfl, rfl⟩
    · split at hmem
      · exact .inr (Table.mem_erase.mp hmem).1
      · exact .inr hmem

theorem twoHops_storeNeighbour (T : Tables F) (link : LinkTuple F) (w : Option Willingness)
    (symmetric : Bool) : (storeNeighbour T link w symmetric).twoHops = T.twoHops := by
  rw [storeNeighbour_eq]

theorem hasSymmetricNeighbour_iff {main : Address F} :
    r.hasSymmetricNeighbour main = true ↔
      ∃ n ∈ r.tables.neighbours, n.symmetric = true ∧ n.main = main := by
  rw [hasSymmetricNeighbour, Option.any_eq_true]
  constructor
  · rintro ⟨n, hn, hs⟩
    obtain ⟨hmem, hmain⟩ := Table.get?_eq_some_iff.mp hn
    exact ⟨n, hmem, hs, hmain⟩
  · rintro ⟨n, hmem, hs, hmain⟩
    exact ⟨n, Table.get?_eq_some_iff.mpr ⟨hmem, hmain⟩, hs⟩

theorem updateNeighbour_twoHopsApart (h : r.TwoHopsApart) (link : LinkTuple F) (w : Option Willingness) :
    (r.updateNeighbour link w now).2.TwoHopsApart := by
  unfold updateNeighbour
  dsimp only
  split
  · -- the node becomes a symmetric neighbour, and the tuples that name it are erased
    intro t ht
    obtain ⟨hmem, hne⟩ := mem_eraseTwoHops ht
    have hmem : t ∈ (storeNeighbour r.tables link w _).twoHops := hmem
    rw [twoHops_storeNeighbour] at hmem
    refine ⟨(h t hmem).1, fun n hn hs => ?_⟩
    rw [neighbours_eraseTwoHops] at hn
    rcases mem_storeNeighbour hn with ⟨hmain, -⟩ | hn
    · exact hmain ▸ of_decide_eq_false hne
    · exact (h t hmem).2 n hn hs
  · rename_i hold
    refine h.mono rfl ⟨fun n hn hs => ?_, fun t ht => ?_⟩
    · rcases mem_storeNeighbour hn with ⟨hmain, hreached⟩ | hn
      · -- a node that is symmetric and does not become so was it before
        have hbefore : r.hasSymmetricNeighbour (r.mainAddress link.neighbour) = true := by
          cases hb : r.hasSymmetricNeighbour (r.mainAddress link.neighbour) with
          | true => rfl
          | false => exact absurd ⟨hreached.symm.trans hs, by rw [hb]; rfl⟩ hold
        rw [hmain]
        exact hasSymmetricNeighbour_iff.mp hbefore
      · exact ⟨n, hn, hs, rfl⟩
    · have ht : t ∈ (storeNeighbour r.tables link w _).twoHops := ht
      rw [twoHops_storeNeighbour] at ht
      exact ⟨t, ht, rfl⟩

theorem updateRelays_twoHopsApart (h : r.TwoHopsApart) : r.updateRelays.TwoHopsApart := by
  have hd : Does [.journal, .relays] 0 r r.updateRelays := updateRelays_does r
  exact hd.twoHopsApart (by decide) (by decide) h

theorem updateRoutes_twoHopsApart (h : r.TwoHopsApart) : (r.updateRoutes now).TwoHopsApart :=
  h.perform (d := .routes) nofun nofun trivial

theorem loseNeighbour_twoHopsApart (h : r.TwoHopsApart) (main : Address F) :
    (r.loseNeighbour main now).TwoHopsApart := by
  obtain ⟨r', hd, he⟩ := (r.note (.neighbourLost main)).forgetNeighbour_eq main now
  rw [loseNeighbour, he]
  exact hd.twoHopsApart (by decide) (by decide) h

theorem checkNeighbour_twoHopsApart (h : r.TwoHopsApart) (link : LinkTuple F) (w : Option Willingness) :
    (r.checkNeighbour link w now).TwoHopsApart := by
  have hu : (r.updateNeighbour link w now).2.TwoHopsApart := updateNeighbour_twoHopsApart h link w
  rw [checkNeighbour_eq]
  split
  · exact loseNeighbour_twoHopsApart hu _
  · exact hu

theorem rederive_twoHopsApart (h : r.TwoHopsApart) (main : Address F) :
    (r.rederive main now).TwoHopsApart := by
  unfold rederive
  split
  · exact updateNeighbour_twoHopsApart h _ none
  · refine h.mono rfl ⟨fun n hn hs => ?_, fun t ht => ⟨t, ht, rfl⟩⟩
    exact ⟨n, (Table.mem_erase.mp hn).1, hs, rfl⟩

theorem linkRemoved_twoHopsApart (h : r.TwoHopsApart) (link : LinkTuple F) :
    (r.linkRemoved link now).TwoHopsApart := by
  have hnote : (r.note (.linkRemoved link.iface link.neighbour)).TwoHopsApart := h
  have hr : ((r.note (.linkRemoved link.iface link.neighbour)).rederive
      (r.mainAddress link.neighbour) now).TwoHopsApart := rederive_twoHopsApart hnote _
  rw [linkRemoved_eq]
  dsimp only
  split
  · exact loseNeighbour_twoHopsApart hr _
  · exact (recompute_does _ now).twoHopsApart (by decide) (by decide) hr

theorem markLost_twoHopsApart (h : r.TwoHopsApart) (hold : Time) (key : Address F × Address F) :
    (markLost hold now r key).TwoHopsApart := by
  unfold markLost
  split
  · exact h
  · rename_i link _
    let lost := { link with lostTime := some hold, time := hold }
    have hmark : (r.onStore fun s =>
        (s.overwrite (.link lost)).rearm (.link lost.iface lost.neighbour) now).TwoHopsApart := by
      refine h.mono rfl ?_
      rw [onStore, Store.tables_rearm]
      exact .of_subset rfl fun _ ht => ht
    exact checkNeighbour_twoHopsApart hmark lost none

theorem linkFailed_twoHopsApart (h : r.TwoHopsApart) (destination : Address F) :
    (r.linkFailed destination now).TwoHopsApart := by
  unfold linkFailed
  split
  · split
    · exact h
    · exact List.foldlRecOn _ _ h fun r hr key _ => markLost_twoHopsApart hr _ key
  · exact h

/-! ## Messages -/

theorem senseHello_twoHopsApart (h : r.TwoHopsApart) (validity : Time) (w : Willingness)
    (blocks : List (HelloBlock F)) (receiver sender : Address F) :
    (r.senseHello validity w blocks receiver sender now).TwoHopsApart := by
  unfold senseHello
  dsimp only
  split
  · have hr (link : LinkTuple F) :
        ((r.note (.linkAdded receiver sender)).onStore (·.insert (.link link) now)).TwoHopsApart := by
      refine h.mono rfl ?_
      rw [onStore, Store.tables_insert]
      exact .of_subset rfl fun _ ht => ht
    exact checkNeighbour_twoHopsApart (hr _) _ _
  · have hr (link : LinkTuple F) : (r.onStore (·.overwrite (.link link))).TwoHopsApart :=
      h.mono rfl (.of_subset rfl fun _ ht => ht)
    split
    · exact checkNeighbour_twoHopsApart (hr _) _ _
    · exact hr _

theorem recordWillingness_twoHopsApart (h : r.TwoHopsApart) (originator : Address F) (w : Willingness) :
    (r.recordWillingness originator w).TwoHopsApart := by
  unfold recordWillingness
  split
  · exact h
  · rename_i n₀ hn₀
    refine h.mono rfl ⟨fun n hn hs => ?_, fun t ht => ⟨t, ht, rfl⟩⟩
    rcases Table.mem_insert.mp hn with rfl | ⟨hn, -⟩
    · exact ⟨n₀, (Table.get?_eq_some_iff.mp hn₀).1, hs, rfl⟩
    · exact ⟨n, hn, hs, rfl⟩

/-- A two-hop tuple is stored for a node that is none of this node and its symmetric neighbours. -/
theorem insertTwoHop_twoHopsApart (h : r.TwoHopsApart) {t : TwoHopTuple F}
    (hself : r.isLocal t.twoHop = false) (hneighbour : r.hasSymmetricNeighbour t.twoHop = false) :
    (r.onStore (·.insert (.twoHop t) now)).TwoHopsApart := by
  intro u hu
  rw [onStore, Store.tables_insert] at hu ⊢
  rcases Table.mem_insert.mp hu with rfl | ⟨hu, -⟩
  · refine ⟨ne_address_of_isLocal hself, fun n hn hs he => ?_⟩
    rw [hasSymmetricNeighbour_iff.mpr ⟨n, hn, hs, he.symm⟩] at hneighbour
    cases hneighbour
  · exact h u hu

theorem recordTwoHop_twoHopsApart (h : r.TwoHopsApart) (originator : Address F) (validUntil : Time)
    (said : NeighbourType × Address F) : (recordTwoHop originator validUntil now r said).TwoHopsApart := by
  unfold recordTwoHop
  dsimp only
  split
  · have hd : Does [.dropped .twoHop] now r
        (r.onStore (·.erase (.twoHop originator (r.mainAddress said.2)))) :=
      (Does.nothing r).deed (.erase _) _ List.mem_cons_self rfl trivial
    exact hd.twoHopsApart (by decide) (by decide) h
  all_goals
    split
    · exact h
    · rename_i hfar
      rw [not_or, Bool.not_eq_true, Bool.not_eq_true] at hfar
      obtain ⟨hself, hneighbour⟩ := hfar
      split
      · rename_i t ht
        have hd : Does [.refreshed .twoHop] now r
            (r.onStore (·.overwrite (.twoHop { t with time := validUntil }))) :=
          (Does.nothing r).deed (.refresh _) _ List.mem_cons_self rfl
            ⟨.twoHop t, Tables.get?_key_twoHop ht, trivial⟩
        exact hd.twoHopsApart (by decide) (by decide) h
      · have hnote (n : Notice F) : (r.note n).TwoHopsApart := h
        exact insertTwoHop_twoHopsApart (hnote _) hself hneighbour

theorem processHello_twoHopsApart (h : r.TwoHopsApart) (originator : Address F) (validity : Time)
    (w : Willingness) (blocks : List (HelloBlock F)) (receiver sender : Address F) :
    (r.processHello originator validity w blocks receiver sender now).TwoHopsApart := by
  have hwillingness : ((r.senseHello validity w blocks receiver sender now).recordWillingness originator
      w).TwoHopsApart :=
    recordWillingness_twoHopsApart (senseHello_twoHopsApart h validity w blocks receiver sender) originator w
  unfold processHello
  dsimp only
  refine (recordSelector_does _ _ _ _).twoHopsApart (by decide) (by decide) ?_
  refine updateRelays_twoHopsApart ?_
  unfold recordTwoHops
  split
  · exact List.foldlRecOn _ _ hwillingness fun r hr said _ => recordTwoHop_twoHopsApart hr originator _ said
  · exact hwillingness

theorem process_twoHopsApart (h : r.TwoHopsApart) {m : Message F} (ho : m.originator ≠ r.address)
    (receiver sender : Address F) : (r.process m receiver sender now).TwoHopsApart := by
  unfold process
  split
  · exact processHello_twoHopsApart h _ _ _ _ _ _
  · exact (processTc_does r _ _ _ _ _).twoHopsApart (by decide) (by decide) h
  · exact (processMid_does r ho _ _ _).twoHopsApart (by decide) (by decide) h
  · exact h

theorem handleMessage_twoHopsApart (h : r.TwoHopsApart) (m : Message F) (receiver sender : Address F) :
    (handleMessage receiver sender now r m).TwoHopsApart := by
  have hforward {r : Router F} (h : r.TwoHopsApart) : (r.forward m receiver sender now).TwoHopsApart :=
    (forward_does r m receiver sender).twoHopsApart (by decide) (by decide) h
  unfold handleMessage
  split
  · exact h
  · rename_i hm
    have hprocess : (r.process m receiver sender now).TwoHopsApart :=
      process_twoHopsApart h (originator_ne_of_not_local hm) receiver sender
    split
    · split
      · exact h
      · exact hforward h
    · dsimp only
      split
      · exact hprocess
      · exact hforward hprocess

/-! ## Timers -/

theorem expire_twoHopsApart (h : r.TwoHopsApart) (key : TupleKey F) (generation : Nat) :
    (r.expire key generation now).TwoHopsApart := by
  have hstore : { r with toStore := (r.toStore.expire key generation now).2 }.TwoHopsApart := by
    have ht := r.toStore.tables_expire key generation now
    refine h.mono rfl ?_
    split at ht
    · show Tables.Narrows r.tables (r.toStore.expire key generation now).2.tables
      rw [ht.2]
      exact r.tables.narrows_drop key
    all_goals
      show Tables.Narrows r.tables (r.toStore.expire key generation now).2.tables
      rw [ht]
      exact .of_subset rfl fun _ ht => ht
  unfold expire
  rcases hexpire : r.toStore.expire key generation now with ⟨expiry, store⟩
  rw [hexpire] at hstore
  dsimp only at hstore ⊢
  split
  · exact hstore
  · split
    · split
      · exact hstore
      · exact checkNeighbour_twoHopsApart hstore _ none
    · exact hstore
  · exact linkRemoved_twoHopsApart hstore _
  · exact (recompute_does _ now).twoHopsApart (by decide) (by decide) hstore
  · exact hstore
  · exact updateRoutes_twoHopsApart hstore
  · exact updateRoutes_twoHopsApart hstore
  · exact hstore

/-- No operation brings this node or a symmetric neighbour two hops away. -/
theorem apply_twoHopsApart (h : r.TwoHopsApart) (now : Time) (op : Operation F) :
    (r.apply now op).TwoHopsApart := by
  have hs := r.apply_step now op
  generalize hr' : r.apply now op = r' at hs
  cases hs with
  | idle => exact h
  | start _ _ _ hd | refresh _ hd => exact hd.twoHopsApart (by decide) (by decide) h
  | stop => exact fun t ht => absurd ht (Table.not_mem_empty t)
  | packet id sender datagram =>
    rw [← hr']
    exact apply_packet_induction h (fun _ _ hr => hr)
      (fun _ m receiver sender hr => handleMessage_twoHopsApart hr m receiver sender)
      (fun _ hr => updateRoutes_twoHopsApart hr) id sender datagram
  | linkFailed destination => exact hr' ▸ linkFailed_twoHopsApart h destination
  | hello _ _ _ hd | tc _ _ _ hd | mid _ _ _ hd => exact hd.twoHopsApart (by decide) (by decide) h
  | flush _ hd => exact hd.twoHopsApart (by decide) (by decide) h
  | expiry key generation hr =>
    rw [← hr', Router.apply, handleTimer, if_pos hr]
    exact expire_twoHopsApart h key generation

/-- In no state of a router is this node or one of its symmetric neighbours two hops away. -/
theorem Reachable.twoHop_ne {time : Time} (h : r.Reachable time) :
    ∀ t ∈ r.tables.twoHops,
      t.twoHop ≠ r.address ∧ ∀ n ∈ r.tables.neighbours, n.symmetric = true → t.twoHop ≠ n.main := by
  show r.TwoHopsApart
  induction h with
  | create => exact fun t ht => absurd ht (Table.not_mem_empty t)
  | apply op _ _ ih => exact apply_twoHopsApart ih _ op

theorem twoHop_ne_sample :
    sample.Reachable 0 ∧ sample.tables.twoHops.toList.map (·.twoHop) = [.ofNat 0x0a000003] ∧
      (sample.tables.neighbours.toList.filter (·.symmetric)).map (·.main) = [.ofNat 0x0a000002] ∧
      ∀ t ∈ sample.tables.twoHops, t.twoHop ≠ sample.address ∧
        ∀ n ∈ sample.tables.neighbours, n.symmetric = true → t.twoHop ≠ n.main :=
  ⟨sample_reachable, by decide +kernel, by decide +kernel, Reachable.twoHop_ne sample_reachable⟩

end Router

end Manet
