import Mathlib.Data.List.Induction
import Mathlib.Data.List.Nodup
import Mathlib.Data.List.Perm.Subperm
import Manet.Proofs.LinkRoutes

/-!
# Chains of routes

A route is copied from another one: the route to a node two hops away from that to its relay, the
route to a distant node from that to its advertiser, the route to an interface from that to its
node. Routes of one and two hops may be overwritten later, but never one that was copied. So every
route of the result is a chain (`compute_isChain`): it leaves over a live link to a symmetric
neighbour, the last node on its way has the same route up to there, and it visits no node twice.
-/

namespace Manet

variable {F : Family} {T : Tables F} {locals : List (Address F)} {now : Time} {R R' : RouteTable F}

namespace Route

/-- What a route is in the table `R` that holds it. -/
structure IsChain (T : Tables F) (now : Time) (R : RouteTable F) (route : Route F) : Prop where
  /-- The local interface and the next hop are the ends of a live link to a symmetric neighbour. -/
  link : ∃ l, T.links.get? (route.iface, route.nextHop) = some l ∧ l.isAlive now = true ∧
    RouteTable.isSymmetricNeighbour T (T.mainAddress l.neighbour) = true
  length : route.path.length + 1 = route.distance
  /-- The last node on the way has the route up to there. -/
  parent : ∀ p q, route.path = p ++ [q] →
    R.get? q = some { route with destination := q, distance := route.distance - 1, path := p }
  nodup : route.hops.Nodup

/-- The route to a node next to the destination. -/
def behind (via : Route F) (destination : Address F) : Route F :=
  { via with destination, distance := via.distance + 1, path := via.hops }

/-- The table need only keep the routes to the nodes on the way. -/
theorem IsChain.of_kept {route : Route F} (h : route.IsChain T now R)
    (hkept : ∀ q ∈ route.path, ∀ parent, R.get? q = some parent → R'.get? q = some parent) :
    route.IsChain T now R' where
  link := h.link
  length := h.length
  parent p q hp := hkept q (hp ▸ List.mem_append_right p List.mem_cons_self) _ (h.parent p q hp)
  nodup := h.nodup

theorem IsChain.behind {via : Route F} (h : via.IsChain T now R)
    (hget : R.get? via.destination = some via) {destination : Address F}
    (hd : destination ∉ via.hops) : (via.behind destination).IsChain T now R where
  link := h.link
  length := by
    rw [Route.behind, hops, List.length_append, List.length_singleton, h.length]
  parent p q hp := by
    obtain ⟨rfl, hq⟩ := List.append_inj' hp rfl
    cases hq
    exact hget
  nodup := by
    have hsingle : ∀ a ∈ via.hops, ∀ b ∈ [destination], a ≠ b := fun a ha b hb heq =>
      hd (List.mem_singleton.mp hb ▸ heq ▸ ha)
    exact List.nodup_append.mpr ⟨h.nodup, List.nodup_singleton _, hsingle⟩

/-- The same way leads to another address of the destination. -/
theorem IsChain.withDestination {route : Route F} (h : route.IsChain T now R)
    {destination : Address F} (hd : destination ∉ route.path) :
    IsChain T now R { route with destination } where
  link := h.link
  length := h.length
  parent := h.parent
  nodup := by
    have hpath : route.path.Nodup := (List.nodup_append.mp h.nodup).1
    have hsingle : ∀ a ∈ route.path, ∀ b ∈ [destination], a ≠ b := fun a ha b hb heq =>
      hd (List.mem_singleton.mp hb ▸ heq ▸ ha)
    exact List.nodup_append.mpr ⟨hpath, List.nodup_singleton _, hsingle⟩

end Route

namespace RouteTable

/-! ## Routes of one and two hops -/

/-- The routes as long as no distant nodes are added: those to symmetric neighbours are direct, and
the ways of the others lead through symmetric neighbours. -/
structure IsNear (T : Tables F) (now : Time) (R : RouteTable F) : Prop where
  isChain : ∀ route ∈ R, route.IsChain T now R
  direct : ∀ route ∈ R, isSymmetricNeighbour T route.destination = true → route.path = []
  relayed : ∀ route ∈ R, ∀ a ∈ route.path, isSymmetricNeighbour T a = true
  distance_le : ∀ route ∈ R, route.distance ≤ 2

theorem insert_overLink_isChain {l : LinkTuple F} {main : Address F}
    (hs : isSymmetricNeighbour T main = true) (hl : l ∈ linksTo T now main) (a : Address F)
    (hR : ∀ route ∈ R, route.path = [] ∧ route.IsChain T now R) :
    ∀ route ∈ R.insert (overLink l a), route.path = [] ∧ route.IsChain T now (R.insert (overLink l a)) := by
  obtain ⟨hmem, halive, rfl⟩ := mem_linksTo.mp hl
  intro route hr
  obtain rfl | ⟨hr, -⟩ := Table.mem_insert.mp hr
  · refine ⟨rfl, ⟨l, Table.get?_eq_some_iff.mpr ⟨hmem, rfl⟩, halive, hs⟩, rfl, ?_, List.nodup_singleton _⟩
    intro p q hp
    exact absurd hp.symm (List.append_ne_nil_of_right_ne_nil p (List.cons_ne_nil q []))
  · obtain ⟨hpath, hchain⟩ := hR route hr
    refine ⟨hpath, hchain.of_kept ?_⟩
    rw [hpath]
    nofun

theorem neighbourRoutes_isNear (T : Tables F) (now : Time) : IsNear T now (neighbourRoutes T now) := by
  let P : RouteTable F → Prop := fun R => ∀ route ∈ R, route.path = [] ∧ route.IsChain T now R
  have hdirect : P (neighbourRoutes T now) := by
    refine List.foldlRecOn (motive := P) _ _ (fun _ hr => absurd hr (Table.not_mem_empty _)) fun R hR main hm => ?_
    have hs := isSymmetricNeighbour_iff.mpr hm
    exact addNeighbour_induction (P := P) (fun R l hl a hR => insert_overLink_isChain hs hl a hR)
      (List.foldlRecOn (motive := P) _ _ hR fun R hR l hl => insert_overLink_isChain hs hl l.neighbour hR)
  refine ⟨fun route hr => (hdirect route hr).2, fun route hr _ => (hdirect route hr).1, fun route hr => ?_,
    fun route hr => ?_⟩
  · rw [(hdirect route hr).1]
    nofun
  · obtain ⟨hpath, hchain⟩ := hdirect route hr
    rw [← hchain.length, hpath]
    exact Nat.le_succ 1

/-- A route to a node two hops away leads through its relay, and its destination is no symmetric
neighbour. -/
theorem addTwoHop_cases (T : Tables F) (locals : List (Address F)) (R : RouteTable F)
    (t : TwoHopTuple F) : addTwoHop T locals R t = R ∨
    ∃ via, R.get? t.neighbour = some via ∧ isSymmetricNeighbour T t.neighbour = true ∧
      isSymmetricNeighbour T t.twoHop = false ∧
      addTwoHop T locals R t = R.insert
        { via with destination := t.twoHop, distance := 2, path := [t.neighbour] } := by
  unfold addTwoHop
  split
  · exact .inl rfl
  · rename_i hfar
    split
    · exact .inl rfl
    · rename_i relay hrelay
      obtain ⟨hget, hwilling⟩ := Option.filter_eq_some_iff.mp hrelay
      obtain ⟨hs, -⟩ := of_decide_eq_true hwilling
      obtain ⟨-, hmain : relay.main = t.neighbour⟩ := Table.get?_eq_some_iff.mp hget
      split
      · exact .inl rfl
      · rename_i via hvia
        split
        · exact .inl rfl
        · rw [hmain] at hvia ⊢
          refine .inr ⟨via, hvia, ?_, Bool.eq_false_iff.mpr fun h => hfar (.inr h), rfl⟩
          rw [isSymmetricNeighbour, hget]
          exact hs

theorem addTwoHop_isNear (h : IsNear T now R) (locals : List (Address F)) (t : TwoHopTuple F) :
    IsNear T now (addTwoHop T locals R t) := by
  obtain heq | ⟨via, hvia, hs, hfar, heq⟩ := addTwoHop_cases T locals R t
  · rw [heq]
    exact h
  obtain ⟨hmem, hd : via.destination = t.neighbour⟩ := Table.get?_eq_some_iff.mp hvia
  have hpath : via.path = [] := h.direct via hmem (hd ▸ hs)
  have hvias : via.hops = [t.neighbour] := by rw [Route.hops, hpath, hd, List.nil_append]
  have hdist : via.distance = 1 := by rw [← (h.isChain via hmem).length, hpath, List.length_nil]
  have hnew : (via.behind t.twoHop) = { via with destination := t.twoHop, distance := 2, path := [t.neighbour] } := by
    rw [Route.behind, hvias, hdist]
  rw [heq, ← hnew]
  -- nothing leads through the destination, since it is no symmetric neighbour
  have hkept (q : Address F) (hq : isSymmetricNeighbour T q = true) (parent : Route F)
      (hget : R.get? q = some parent) : (R.insert (via.behind t.twoHop)).get? q = some parent := by
    rw [Table.get?_insert, if_neg, hget]
    rintro rfl
    exact Bool.false_ne_true (hfar.symm.trans hq)
  have hnot : t.twoHop ∉ via.hops := by
    rw [hvias, List.mem_singleton]
    intro hm
    exact Bool.false_ne_true (hfar.symm.trans (hm ▸ hs))
  have hway : ∀ a ∈ (via.behind t.twoHop).path, isSymmetricNeighbour T a = true := by
    intro a ha
    rw [Route.behind, hvias] at ha
    exact List.mem_singleton.mp ha ▸ hs
  refine ⟨fun route hr => ?_, fun route hr hsym => ?_, fun route hr => ?_, fun route hr => ?_⟩
  · obtain rfl | ⟨hr, -⟩ := Table.mem_insert.mp hr
    · exact ((h.isChain via hmem).behind (hd ▸ hvia) hnot).of_kept fun q hq => hkept q (hway q hq)
    · exact (h.isChain route hr).of_kept fun q hq => hkept q (h.relayed route hr q hq)
  · obtain rfl | ⟨hr, -⟩ := Table.mem_insert.mp hr
    · exact absurd (hfar.symm.trans hsym) Bool.false_ne_true
    · exact h.direct route hr hsym
  · obtain rfl | ⟨hr, -⟩ := Table.mem_insert.mp hr
    · exact hway
    · exact h.relayed route hr
  · obtain rfl | ⟨hr, -⟩ := Table.mem_insert.mp hr
    · exact Nat.succ_le_succ (Nat.le_of_eq hdist)
    · exact h.distance_le route hr

theorem addTwoHops_isNear (T : Tables F) (locals : List (Address F)) (now : Time) :
    IsNear T now (addTwoHops T locals (neighbourRoutes T now)) :=
  List.foldlRecOn (motive := IsNear T now) _ _ (neighbourRoutes_isNear T now)
    fun _ h t _ => addTwoHop_isNear h locals t

/-! ## Routes to distant nodes -/

theorem lacksRoute_iff {a : Address F} :
    lacksRoute locals R a = true ↔ a ∉ locals ∧ R.get? a = none := by
  simp [lacksRoute, Table.contains_eq_isSome]

/-- The nodes on the way of a chain have routes themselves. -/
theorem isSome_get?_of_mem_path (hR : ∀ route ∈ R, route.IsChain T now R) {route : Route F}
    (hr : route ∈ R) {a : Address F} (ha : a ∈ route.path) : (R.get? a).isSome = true := by
  induction hp : route.path using List.reverseRecOn generalizing route with
  | nil => exact absurd (hp ▸ ha) List.not_mem_nil
  | append_singleton p q ih =>
    have hget := (hR route hr).parent p q hp
    rcases List.mem_append.mp (hp ▸ ha) with hm | hm
    · exact ih (Table.get?_eq_some_iff.mp hget).1 hm rfl
    · rw [List.mem_singleton.mp hm, hget, Option.isSome_some]

/-- A chain to a node without a route can be added. -/
theorem isChain_insert (hR : ∀ route ∈ R, route.IsChain T now R) {new : Route F}
    (hnew : new.IsChain T now R) (hlacks : R.get? new.destination = none) :
    ∀ route ∈ R.insert new, route.IsChain T now (R.insert new) := by
  have hkept (q : Address F) (parent : Route F) (hget : R.get? q = some parent) :
      (R.insert new).get? q = some parent := by
    rw [Table.get?_insert, if_neg, hget]
    intro hkey
    exact Option.some_ne_none _ (hget.symm.trans (hkey ▸ hlacks))
  intro route hr
  obtain rfl | ⟨hr, -⟩ := Table.mem_insert.mp hr
  · exact hnew.of_kept fun q _ => hkept q
  · exact (hR route hr).of_kept fun q _ => hkept q

theorem addAdvertised_isChain (hR : ∀ route ∈ R, route.IsChain T now R) (h : Nat) (t : TopologyTuple F) :
    ∀ route ∈ addAdvertised locals h R t, route.IsChain T now (addAdvertised locals h R t) := by
  unfold addAdvertised
  split
  · rename_i hlacks
    obtain ⟨-, hlacks⟩ := lacksRoute_iff.mp hlacks
    split
    · exact hR
    · rename_i parent hparent
      obtain ⟨hmem, hd : parent.destination = t.last⟩ := Table.get?_eq_some_iff.mp hparent
      split
      · rename_i hdist
        subst hdist
        refine isChain_insert hR ((hR parent hmem).behind (hd ▸ hparent) fun hm => ?_) hlacks
        -- all nodes of the parent's chain have routes
        rcases List.mem_append.mp hm with hm | hm
        · have := isSome_get?_of_mem_path hR hmem hm
          rw [hlacks] at this
          exact Bool.false_ne_true this
        · rw [List.mem_singleton.mp hm, hd, hparent] at hlacks
          exact Option.some_ne_none _ hlacks
      · exact hR
  · exact hR

theorem addInterface_isChain (hR : ∀ route ∈ R, route.IsChain T now R) (t : AssociationTuple F) :
    ∀ route ∈ addInterface locals R t, route.IsChain T now (addInterface locals R t) := by
  unfold addInterface
  split
  · rename_i hlacks
    obtain ⟨-, hlacks⟩ := lacksRoute_iff.mp hlacks
    split
    · exact hR
    · rename_i main hmain
      have hmem := (Table.get?_eq_some_iff.mp hmain).1
      refine isChain_insert hR ((hR main hmem).withDestination fun hm => ?_) hlacks
      have := isSome_get?_of_mem_path hR hmem hm
      rw [hlacks] at this
      exact Bool.false_ne_true this
  · exact hR

/-- The chains of one and two hops stay chains while the distant nodes are added. -/
theorem isChain_of_mem_compute (T : Tables F) (locals : List (Address F)) (now : Time) :
    ∀ route ∈ compute T locals now, route.IsChain T now (compute T locals now) :=
  addLayers_induction (P := fun R => ∀ route ∈ R, route.IsChain T now R)
    (fun h _ t hR => addAdvertised_isChain hR h t) (fun _ t hR => addInterface_isChain hR t) _ _
    (addTwoHops_isNear T locals now).isChain

/-- Every route that is computed is filed under its destination and is a chain. -/
theorem compute_isChain (T : Tables F) (locals : List (Address F)) (now : Time) :
    ∀ route ∈ compute T locals now, (compute T locals now).get? route.destination = some route ∧
      route.IsChain T now (compute T locals now) := by
  intro route hr
  exact ⟨Table.get?_eq_some_iff.mpr ⟨hr, rfl⟩, isChain_of_mem_compute T locals now route hr⟩

/-- A route has as many hops as there are routes at most: each node on its way has one. -/
theorem distance_le_size (T : Tables F) (locals : List (Address F)) (now : Time) :
    ∀ route ∈ compute T locals now, route.distance ≤ (compute T locals now).size := by
  intro route hr
  have hR := isChain_of_mem_compute T locals now
  have hchain := hR route hr
  have hrouted : route.hops ⊆ (compute T locals now).toList.map Route.destination := by
    intro a ha
    rcases List.mem_append.mp ha with ha | ha
    · obtain ⟨via, hvia⟩ := Option.isSome_iff_exists.mp (isSome_get?_of_mem_path hR hr ha)
      obtain ⟨hmem, hd⟩ := Table.get?_eq_some_iff.mp hvia
      exact List.mem_map.mpr ⟨via, hmem, hd⟩
    · exact List.mem_map.mpr ⟨route, hr, (List.mem_singleton.mp ha).symm⟩
  have hlength : route.hops.length = route.distance := by
    rw [Route.hops, List.length_append, List.length_singleton, hchain.length]
  have hle := (hchain.nodup.subperm hrouted).length_le
  rwa [hlength, List.length_map] at hle

/-- What 10.0.0.1 knows in a small mesh: its neighbours 10.0.0.2 and 10.0.0.3 both relay for
10.0.0.4, behind it are 10.0.0.5, which has the interface 10.0.0.25 too, and then 10.0.0.6. -/
def mesh : Tables .ipv4 :=
  { (∅ : Tables .ipv4) with
    links := .ofList [⟨.ofNat 0x0a000001, .ofNat 0x0a000002, 5, 5, 5, none⟩,
      ⟨.ofNat 0x0a000001, .ofNat 0x0a000003, 5, 5, 5, none⟩]
    neighbours := .ofList [⟨.ofNat 0x0a000002, .standard, true⟩, ⟨.ofNat 0x0a000003, .standard, true⟩]
    twoHops := .ofList [⟨.ofNat 0x0a000002, .ofNat 0x0a000004, 5⟩, ⟨.ofNat 0x0a000003, .ofNat 0x0a000004, 5⟩]
    topology := .ofList [⟨.ofNat 0x0a000005, .ofNat 0x0a000004, 1, 5⟩, ⟨.ofNat 0x0a000006, .ofNat 0x0a000005, 1, 5⟩]
    associations := .ofList [⟨.ofNat 0x0a000019, .ofNat 0x0a000005, some 5⟩] }

/-- The route to the far end of the mesh. It takes the way of the later relay, which replaced the
route over the earlier one. -/
def meshRoute : Route .ipv4 where
  destination := .ofNat 0x0a000006
  nextHop := .ofNat 0x0a000003
  iface := .ofNat 0x0a000001
  distance := 4
  path := [.ofNat 0x0a000003, .ofNat 0x0a000004, .ofNat 0x0a000005]

theorem compute_isChain_mesh :
    let R := compute mesh [.ofNat 0x0a000001] 0
    meshRoute ∈ R ∧ R.get? meshRoute.destination = some meshRoute ∧ meshRoute.IsChain mesh 0 R ∧
      R.get? (.ofNat 0x0a000005) = some { meshRoute with
        destination := .ofNat 0x0a000005
        distance := 3
        path := [.ofNat 0x0a000003, .ofNat 0x0a000004] } := by
  have hm : meshRoute ∈ compute mesh [.ofNat 0x0a000001] 0 := by decide +kernel
  obtain ⟨hget, hchain⟩ := compute_isChain mesh [.ofNat 0x0a000001] 0 meshRoute hm
  exact ⟨hm, hget, hchain, hchain.parent _ _ rfl⟩

end RouteTable

end Manet
