import Manet.Proofs.RouteChains

/-!
# Layers of routes

Distant nodes are added in passes. Each pass but the last gives a route to the destination of a
topology tuple or to an interface that had none, and none loses its route, so there are at most as
many passes as there are such tuples, and one (`addLayers_end`). The pass at `h` hops adds the nodes
behind those that are `h` hops away, so before it the layers below `h` are complete
(`addLayer_isLayered`). `compute_layers` puts both together.
-/

namespace Manet.RouteTable

variable {F : Family} {T : Tables F} {locals : List (Address F)} {now : Time} {R R' R'' : RouteTable F}
variable {h : Nat}

/-! ## What a step adds -/

/-- All routes of `R` are in `R'`. -/
def Keeps (R R' : RouteTable F) : Prop := ∀ a route, R.get? a = some route → R'.get? a = some route

theorem Keeps.trans (hk : Keeps R R') (hk' : Keeps R' R'') : Keeps R R'' :=
  fun a route hr => hk' a route (hk a route hr)

theorem get?_insert_self (R : RouteTable F) (new : Route F) :
    (R.insert new).get? new.destination = some new :=
  Table.get?_eq_some_iff.mpr ⟨Table.mem_insert.mpr (.inl rfl), rfl⟩

theorem Keeps.insert {new : Route F} (hlacks : R.get? new.destination = none) : Keeps R (R.insert new) := by
  intro a route hr
  rw [Table.get?_insert, if_neg, hr]
  rintro rfl
  exact Option.some_ne_none _ (hr.symm.trans hlacks)

/-- A step for a topology tuple adds the route behind an advertiser that is `h` hops away, unless the
destination is local or has a route. -/
theorem addAdvertised_cases (locals : List (Address F)) (h : Nat) (R : RouteTable F) (t : TopologyTuple F) :
    (∃ last, R.get? t.last = some last ∧ last.distance = h ∧ t.dest ∉ locals ∧ R.get? t.dest = none ∧
      addAdvertised locals h R t = R.insert (last.behind t.dest)) ∨
    addAdvertised locals h R t = R ∧
      (t.dest ∉ locals → R.get? t.dest = none → ∀ last, R.get? t.last = some last → last.distance ≠ h) := by
  by_cases hlacks : lacksRoute locals R t.dest = true
  · obtain ⟨hfar, hnone⟩ := lacksRoute_iff.mp hlacks
    rw [addAdvertised, if_pos hlacks]
    split
    · rename_i hlast
      exact .inr ⟨rfl, fun _ _ last hl => absurd (hlast.symm.trans hl) (Option.some_ne_none last).symm⟩
    · rename_i last hlast
      split
      · rename_i hdist
        refine .inl ⟨last, hlast, hdist, hfar, hnone, ?_⟩
        rw [Route.behind, hdist]
      · rename_i hdist
        refine .inr ⟨rfl, fun _ _ last' hl => ?_⟩
        cases hlast.symm.trans hl
        exact hdist
  · rw [addAdvertised, if_neg hlacks]
    exact .inr ⟨rfl, fun hfar hnone => absurd (lacksRoute_iff.mpr ⟨hfar, hnone⟩) hlacks⟩

/-- A step for an association adds the route of the node to its interface, unless the interface is
local or has a route. -/
theorem addInterface_cases (locals : List (Address F)) (R : RouteTable F) (t : AssociationTuple F) :
    (∃ main, R.get? t.main = some main ∧ t.iface ∉ locals ∧ R.get? t.iface = none ∧
      addInterface locals R t = R.insert { main with destination := t.iface }) ∨
    addInterface locals R t = R ∧
      (t.iface ∉ locals → R.get? t.iface = none → R.get? t.main = none) := by
  by_cases hlacks : lacksRoute locals R t.iface = true
  · obtain ⟨hfar, hnone⟩ := lacksRoute_iff.mp hlacks
    rw [addInterface, if_pos hlacks]
    split
    · rename_i hmain
      exact .inr ⟨rfl, fun _ _ => hmain⟩
    · rename_i main hmain
      exact .inl ⟨main, hmain, hfar, hnone, rfl⟩
  · rw [addInterface, if_neg hlacks]
    exact .inr ⟨rfl, fun hfar hnone => absurd (lacksRoute_iff.mpr ⟨hfar, hnone⟩) hlacks⟩

theorem addAdvertised_keeps (locals : List (Address F)) (h : Nat) (R : RouteTable F) (t : TopologyTuple F) :
    Keeps R (addAdvertised locals h R t) := by
  obtain ⟨_, -, -, -, hnone, heq⟩ | ⟨heq, -⟩ := addAdvertised_cases locals h R t <;> rw [heq]
  · exact .insert hnone
  · exact fun _ _ hr => hr

theorem addInterface_keeps (locals : List (Address F)) (R : RouteTable F) (t : AssociationTuple F) :
    Keeps R (addInterface locals R t) := by
  obtain ⟨_, -, -, hnone, heq⟩ | ⟨heq, -⟩ := addInterface_cases locals R t <;> rw [heq]
  · exact .insert hnone
  · exact fun _ _ hr => hr

/-- What all steps of a fold keep, and one of them brings about in a table that keeps what there was
at the start, holds in the end. -/
theorem foldl_of_step {α : Type} {f : RouteTable F → α → RouteTable F} {P : RouteTable F → Prop}
    (hf : ∀ R x, Keeps R (f R x)) (hP : ∀ {R R'}, Keeps R R' → P R → P R') {l : List α} {x : α}
    (hx : x ∈ l) (hstep : ∀ R', Keeps R R' → P (f R' x)) : P (l.foldl f R) := by
  obtain ⟨before, after, rfl⟩ := List.append_of_mem hx
  rw [List.foldl_append, List.foldl_cons]
  have hkeeps (R : RouteTable F) (l : List α) : Keeps R (l.foldl f R) :=
    List.foldlRecOn (motive := Keeps R) l f (fun _ _ hr => hr) fun R' hR x _ => hR.trans (hf R' x)
  exact hP (hkeeps _ after) (hstep _ (hkeeps R before))

/-! ## The number of passes -/

/-- The addresses that tuples say how to reach, with repetitions. -/
def candidates (T : Tables F) : List (Address F) :=
  T.topology.toList.map (·.dest) ++ T.associations.toList.map (·.iface)

/-- How many of them need a route. -/
def openings (T : Tables F) (locals : List (Address F)) (R : RouteTable F) : Nat :=
  (candidates T).countP (lacksRoute locals R)

theorem openings_le (T : Tables F) (locals : List (Address F)) (R : RouteTable F) :
    openings T locals R ≤ T.topology.size + T.associations.size := by
  refine Nat.le_trans List.countP_le_length (Nat.le_of_eq ?_)
  rw [candidates, List.length_append, List.length_map, List.length_map, Table.size, Table.size]

/-- Nothing is added, or routes that were needed. -/
def Fills (T : Tables F) (locals : List (Address F)) (R R' : RouteTable F) : Prop :=
  R' = R ∨ R.size < R'.size ∧ openings T locals R' < openings T locals R

theorem Fills.trans (hf : Fills T locals R R') (hf' : Fills T locals R' R'') : Fills T locals R R'' := by
  obtain rfl | ⟨hsize', hopen'⟩ := hf'
  · exact hf
  · obtain rfl | ⟨hsize, hopen⟩ := hf
    · exact .inr ⟨hsize', hopen'⟩
    · exact .inr ⟨Nat.lt_trans hsize hsize', Nat.lt_trans hopen' hopen⟩

theorem Fills.insert {new : Route F} (hmem : new.destination ∈ candidates T)
    (hfar : new.destination ∉ locals) (hnone : R.get? new.destination = none) :
    Fills T locals R (R.insert new) := by
  have hsize : (R.insert new).size = R.size + 1 := Table.size_insert hnone
  refine .inr ⟨hsize ▸ Nat.lt_succ_self _, ?_⟩
  have hmono (a : Address F) (ha : lacksRoute locals (R.insert new) a = true) : lacksRoute locals R a = true := by
    obtain ⟨hfar, hlacks⟩ := lacksRoute_iff.mp ha
    refine lacksRoute_iff.mpr ⟨hfar, Option.eq_none_iff_forall_ne_some.mpr fun route hr => ?_⟩
    exact Option.some_ne_none _ ((Keeps.insert hnone a route hr).symm.trans hlacks)
  have hbefore : lacksRoute locals R new.destination = true := lacksRoute_iff.mpr ⟨hfar, hnone⟩
  have hafter : ¬ lacksRoute locals (R.insert new) new.destination = true := by
    rw [lacksRoute_iff, get?_insert_self]
    exact fun hn => Option.some_ne_none _ hn.2
  -- the destination is counted before and not any more
  obtain ⟨front, back, hsplit⟩ := List.append_of_mem hmem
  have hfront := List.countP_mono_left fun a (_ : a ∈ front) => hmono a
  have hback := List.countP_mono_left fun a (_ : a ∈ back) => hmono a
  rw [openings, openings, hsplit, List.countP_append, List.countP_append, List.countP_cons_of_pos hbefore,
    List.countP_cons_of_neg hafter]
  omega

theorem addLayer_fills (T : Tables F) (locals : List (Address F)) (h : Nat) (R : RouteTable F) :
    Fills T locals R (addLayer T locals h R) := by
  refine List.foldlRecOn (motive := Fills T locals R) _ _
    (List.foldlRecOn (motive := Fills T locals R) _ _ (.inl rfl) fun R' hR t ht => hR.trans ?_)
    fun R' hR t ht => hR.trans ?_
  · obtain ⟨_, -, -, hfar, hnone, heq⟩ | ⟨heq, -⟩ := addAdvertised_cases locals h R' t <;> rw [heq]
    · exact .insert (List.mem_append_left _ (List.mem_map_of_mem ht)) hfar hnone
    · exact .inl rfl
  · obtain ⟨_, -, hfar, hnone, heq⟩ | ⟨heq, -⟩ := addInterface_cases locals R' t <;> rw [heq]
    · exact .insert (List.mem_append_right _ (List.mem_map_of_mem ht)) hfar hnone
    · exact .inl rfl

/-- Passes are made from the table `R` on, the first at `h` hops, until one adds nothing: that many
passes, the last included, lead to the table `R'`. -/
inductive LayersEnd (T : Tables F) (locals : List (Address F)) :
    (h : Nat) → RouteTable F → (passes : Nat) → RouteTable F → Prop where
  | last {h : Nat} {R : RouteTable F} : addLayer T locals h R = R → LayersEnd T locals h R 1 R
  | more {h passes : Nat} {R R' : RouteTable F} : addLayer T locals h R ≠ R →
      LayersEnd T locals (h + 1) (addLayer T locals h R) passes R' →
      LayersEnd T locals h R (passes + 1) R'

/-- As many layers as there are openings are enough, and one. -/
theorem addLayers_end {layers : Nat} (hlayers : openings T locals R < layers) :
    ∃ passes ≤ openings T locals R + 1, LayersEnd T locals h R passes (addLayers T locals layers h R) := by
  induction layers generalizing h R with
  | zero => exact absurd hlayers (Nat.not_lt_zero _)
  | succ layers ih =>
    rw [addLayers]
    obtain heq | ⟨hsize, hopen⟩ := addLayer_fills T locals h R
    · rw [heq, if_pos rfl]
      exact ⟨1, Nat.le_add_left 1 _, .last heq⟩
    · rw [if_neg (Nat.ne_of_gt hsize)]
      have hne : addLayer T locals h R ≠ R := fun heq => Nat.lt_irrefl _ (heq ▸ hsize)
      obtain ⟨passes, hle, hend⟩ := ih (Nat.lt_of_lt_of_le hopen (Nat.le_of_lt_succ hlayers))
      exact ⟨passes + 1, Nat.succ_le_succ (Nat.le_trans hle hopen), .more hne hend⟩

/-! ## What a pass completes -/

/-- What holds before the pass at `h` hops. -/
structure IsLayered (T : Tables F) (locals : List (Address F)) (h : Nat) (R : RouteTable F) : Prop where
  distance_le : ∀ route ∈ R, route.distance ≤ h
  /-- What lies behind a node of a layer that is done has a route. -/
  routed : ∀ t ∈ T.topology, t.dest ∉ locals → T.associations.get? t.last = none →
    ∀ last, R.get? t.last = some last → 2 ≤ last.distance → last.distance < h →
      ∃ route, R.get? t.dest = some route ∧ route.distance ≤ last.distance + 1
  /-- A node of a layer lies behind one of the layer before. -/
  advertised : ∀ route ∈ R, 3 ≤ route.distance → T.associations.get? route.destination = none →
    ∃ t ∈ T.topology, t.dest = route.destination ∧
      ∃ last, R.get? t.last = some last ∧ last.distance + 1 = route.distance

/-- What holds during the pass at `h` hops that started from `R`. -/
structure IsPassing (T : Tables F) (h : Nat) (R R' : RouteTable F) : Prop where
  keeps : Keeps R R'
  distance_le : ∀ route ∈ R', route.distance ≤ h + 1
  /-- A node that the pass added is one hop further away; interfaces may be anywhere. -/
  added : ∀ route ∈ R', T.associations.get? route.destination = none →
    R.get? route.destination = some route ∨ route.distance = h + 1
  advertised : ∀ route ∈ R', 3 ≤ route.distance → T.associations.get? route.destination = none →
    ∃ t ∈ T.topology, t.dest = route.destination ∧
      ∃ last, R'.get? t.last = some last ∧ last.distance + 1 = route.distance

theorem IsLayered.isPassing (hR : IsLayered T locals h R) : IsPassing T h R R where
  keeps _ _ hr := hr
  distance_le _ hr := Nat.le_succ_of_le (hR.distance_le _ hr)
  added _ hr _ := .inl (Table.get?_eq_some_iff.mpr ⟨hr, rfl⟩)
  advertised := hR.advertised

theorem IsPassing.insert (hp : IsPassing T h R R') {new : Route F} (hnone : R'.get? new.destination = none)
    (hle : new.distance ≤ h + 1)
    (hnew : T.associations.get? new.destination = none → new.distance = h + 1 ∧
      ∃ t ∈ T.topology, t.dest = new.destination ∧
        ∃ last, R'.get? t.last = some last ∧ last.distance + 1 = new.distance) :
    IsPassing T h R (R'.insert new) where
  keeps := hp.keeps.trans (.insert hnone)
  distance_le route hr := by
    obtain rfl | ⟨hr, -⟩ := Table.mem_insert.mp hr
    · exact hle
    · exact hp.distance_le route hr
  added route hr hnode := by
    obtain rfl | ⟨hr, -⟩ := Table.mem_insert.mp hr
    · exact .inr (hnew hnode).1
    · exact hp.added route hr hnode
  advertised route hr hfar hnode := by
    obtain ⟨t, ht, hd, last, hlast, hdist⟩ : ∃ t ∈ T.topology, t.dest = route.destination ∧
        ∃ last, R'.get? t.last = some last ∧ last.distance + 1 = route.distance := by
      obtain rfl | ⟨hr, -⟩ := Table.mem_insert.mp hr
      · exact (hnew hnode).2
      · exact hp.advertised route hr hfar hnode
    exact ⟨t, ht, hd, last, Keeps.insert hnone _ _ hlast, hdist⟩

theorem addAdvertised_isPassing (hp : IsPassing T h R R') {t : TopologyTuple F} (ht : t ∈ T.topology) :
    IsPassing T h R (addAdvertised locals h R' t) := by
  obtain ⟨last, hlast, hdist, -, hnone, heq⟩ | ⟨heq, -⟩ := addAdvertised_cases locals h R' t
  · rw [heq]
    have hnew : (last.behind t.dest).distance = h + 1 := congrArg (· + 1) hdist
    exact hp.insert hnone (Nat.le_of_eq hnew) fun _ => ⟨hnew, t, ht, rfl, last, hlast, rfl⟩
  · rw [heq]
    exact hp

theorem addInterface_isPassing (hp : IsPassing T h R R') {t : AssociationTuple F} (ht : t ∈ T.associations) :
    IsPassing T h R (addInterface locals R' t) := by
  obtain ⟨main, hmain, -, hnone, heq⟩ | ⟨heq, -⟩ := addInterface_cases locals R' t
  · rw [heq]
    refine hp.insert hnone (hp.distance_le main (Table.get?_eq_some_iff.mp hmain).1) fun hnode => ?_
    have hget : T.associations.get? t.iface = some t := Table.get?_eq_some_iff.mpr ⟨ht, rfl⟩
    exact nomatch hget.symm.trans hnode
  · rw [heq]
    exact hp

theorem addLayer_isPassing (hR : IsLayered T locals h R) : IsPassing T h R (addLayer T locals h R) :=
  List.foldlRecOn (motive := IsPassing T h R) _ _
    (List.foldlRecOn (motive := IsPassing T h R) _ _ hR.isPassing fun _ hp _ ht => addAdvertised_isPassing hp ht)
    fun _ hp _ ht => addInterface_isPassing hp ht

/-- What the pass finds `h` hops away gets the nodes behind it routed. -/
theorem addLayer_routes {t : TopologyTuple F} (ht : t ∈ T.topology) (hfar : t.dest ∉ locals) {last : Route F}
    (hlast : R.get? t.last = some last) (hdist : last.distance = h) :
    ∃ route, (addLayer T locals h R).get? t.dest = some route := by
  refine List.foldlRecOn (motive := fun R : RouteTable F => ∃ route, R.get? t.dest = some route) _ _
    (foldl_of_step (P := fun R : RouteTable F => ∃ route, R.get? t.dest = some route)
      (addAdvertised_keeps locals h) (fun hk => fun ⟨route, hr⟩ => ⟨route, hk _ _ hr⟩) ht
      fun R' hk => ?_)
    fun R' ⟨route, hr⟩ t' _ => ⟨route, addInterface_keeps locals R' t' _ _ hr⟩
  obtain ⟨last', -, -, -, -, heq⟩ | ⟨heq, hno⟩ := addAdvertised_cases locals h R' t
  · rw [heq]
    exact ⟨_, get?_insert_self ..⟩
  · rw [heq]
    exact Option.ne_none_iff_exists'.mp fun hnone => hno hfar hnone last (hk _ _ hlast) hdist

/-- The interfaces of a node with a route get routes. -/
theorem addLayer_routes_interface {t : AssociationTuple F} (ht : t ∈ T.associations) (hfar : t.iface ∉ locals)
    {main : Route F} (hmain : R.get? t.main = some main) :
    ∃ route, (addLayer T locals h R).get? t.iface = some route := by
  have hkeeps : Keeps R (T.topology.toList.foldl (addAdvertised locals h) R) :=
    List.foldlRecOn (motive := Keeps R) _ _ (fun _ _ hr => hr)
      fun R' hR t _ => hR.trans (addAdvertised_keeps locals h R' t)
  refine foldl_of_step (P := fun R : RouteTable F => ∃ route, R.get? t.iface = some route)
    (addInterface_keeps locals) (fun hk => fun ⟨route, hr⟩ => ⟨route, hk _ _ hr⟩) ht fun R' hk => ?_
  obtain ⟨main', -, -, -, heq⟩ | ⟨heq, hno⟩ := addInterface_cases locals R' t
  · rw [heq]
    exact ⟨_, get?_insert_self ..⟩
  · rw [heq]
    refine Option.ne_none_iff_exists'.mp fun hnone => ?_
    exact Option.some_ne_none _ ((hk _ _ (hkeeps _ _ hmain)).symm.trans (hno hfar hnone))

theorem addLayer_isLayered (hR : IsLayered T locals h R) :
    IsLayered T locals (h + 1) (addLayer T locals h R) where
  distance_le := (addLayer_isPassing hR).distance_le
  routed t ht hfar hnode last hlast hge hlt := by
    obtain ⟨hmem, hd : last.destination = t.last⟩ := Table.get?_eq_some_iff.mp hlast
    obtain hold | hnew := (addLayer_isPassing hR).added last hmem (hd ▸ hnode)
    · rw [hd] at hold
      obtain hbelow | hhere := Nat.lt_or_eq_of_le (Nat.le_of_lt_succ hlt)
      · obtain ⟨route, hr, hle⟩ := hR.routed t ht hfar hnode last hold hge hbelow
        exact ⟨route, (addLayer_isPassing hR).keeps _ _ hr, hle⟩
      · obtain ⟨route, hr⟩ := addLayer_routes ht hfar hold hhere
        exact ⟨route, hr, hhere ▸ (addLayer_isPassing hR).distance_le route (Table.get?_eq_some_iff.mp hr).1⟩
    · exact absurd hlt (hnew ▸ Nat.lt_irrefl _)
  advertised := (addLayer_isPassing hR).advertised

/-- After the last pass all layers are complete, and another pass would add nothing. -/
theorem LayersEnd.isLayered {passes : Nat} (hend : LayersEnd T locals h R passes R')
    (hR : IsLayered T locals h R) :
    ∃ g, addLayer T locals g R' = R' ∧ (∀ route ∈ R', route.distance ≤ g) ∧
      IsLayered T locals (g + 1) R' := by
  induction hend with
  | last heq => exact ⟨_, heq, hR.distance_le, heq ▸ addLayer_isLayered hR⟩
  | more _ _ ih => exact ih (addLayer_isLayered hR)

/-- The layers are made in a bounded number of passes. In the result, what a node at two hops or more
advertises has a route that is at most one hop longer, every distant node has been advertised by a node
one hop nearer, and nodes with a route have one to all their interfaces. -/
theorem compute_layers (T : Tables F) (locals : List (Address F)) (now : Time) :
    (∃ passes ≤ T.topology.size + T.associations.size + 1,
      LayersEnd T locals 2 (addTwoHops T locals (neighbourRoutes T now)) passes (compute T locals now)) ∧
    (∀ t ∈ T.topology, t.dest ∉ locals → T.associations.get? t.last = none →
      ∀ last, (compute T locals now).get? t.last = some last → 2 ≤ last.distance →
        ∃ route, (compute T locals now).get? t.dest = some route ∧ route.distance ≤ last.distance + 1) ∧
    (∀ route ∈ compute T locals now, 3 ≤ route.distance → T.associations.get? route.destination = none →
      ∃ t ∈ T.topology, t.dest = route.destination ∧
        ∃ last, (compute T locals now).get? t.last = some last ∧ last.distance + 1 = route.distance) ∧
    ∀ t ∈ T.associations, t.iface ∉ locals → (compute T locals now).contains t.main = true →
      (compute T locals now).contains t.iface = true := by
  have hle := openings_le T locals (addTwoHops T locals (neighbourRoutes T now))
  obtain ⟨passes, hpasses, hend⟩ : ∃ passes ≤ _, LayersEnd T locals 2 _ passes (compute T locals now) :=
    addLayers_end (Nat.lt_succ_of_le hle)
  have hstart : IsLayered T locals 2 (addTwoHops T locals (neighbourRoutes T now)) := by
    have hnear := (addTwoHops_isNear T locals now).distance_le
    exact ⟨hnear, fun _ _ _ _ _ _ hge hlt => absurd (Nat.lt_of_le_of_lt hge hlt) (Nat.lt_irrefl _),
      fun route hr hfar => absurd (Nat.le_trans hfar (hnear route hr)) (by decide)⟩
  obtain ⟨g, hlast, hdist, hlayered⟩ := hend.isLayered hstart
  refine ⟨⟨passes, Nat.le_trans hpasses (Nat.succ_le_succ hle), hend⟩, fun t ht hfar hnode last hl hge => ?_,
    hlayered.advertised, fun t ht hfar hmain => ?_⟩
  · have hlt := Nat.lt_succ_of_le (hdist last (Table.get?_eq_some_iff.mp hl).1)
    exact hlayered.routed t ht hfar hnode last hl hge hlt
  · rw [Table.contains_eq_isSome, Option.isSome_iff_exists] at hmain ⊢
    obtain ⟨main, hmain⟩ := hmain
    have hroute := addLayer_routes_interface (h := g) ht hfar hmain
    rwa [hlast] at hroute

/-- In the mesh, the passes at two and three hops add something and the one at four hops is the last;
they could have been four. -/
theorem compute_layers_mesh :
    let R := compute mesh [.ofNat 0x0a000001] 0
    (∃ passes ≤ 4, LayersEnd mesh [.ofNat 0x0a000001] 2
      (addTwoHops mesh [.ofNat 0x0a000001] (neighbourRoutes mesh 0)) passes R) ∧
    (∃ route, R.get? (.ofNat 0x0a000006) = some route ∧ route.distance ≤ 4) ∧
    (∃ t ∈ mesh.topology, t.dest = meshRoute.destination ∧
      ∃ last, R.get? t.last = some last ∧ last.distance + 1 = meshRoute.distance) ∧
    R.contains (.ofNat 0x0a000019) = true := by
  obtain ⟨hends, hrouted, hadvertised, hinterfaces⟩ := compute_layers mesh [.ofNat 0x0a000001] 0
  have hlast : (compute mesh [.ofNat 0x0a000001] 0).get? (.ofNat 0x0a000005) = some { meshRoute with
      destination := .ofNat 0x0a000005
      distance := 3
      path := [.ofNat 0x0a000003, .ofNat 0x0a000004] } := by decide +kernel
  refine ⟨hends, ?_, ?_, ?_⟩
  · exact hrouted ⟨.ofNat 0x0a000006, .ofNat 0x0a000005, 1, 5⟩ (by decide +kernel) (by decide +kernel)
      (by decide +kernel) _ hlast (by decide)
  · exact hadvertised meshRoute (by decide +kernel) (by decide) (by decide +kernel)
  · exact hinterfaces ⟨.ofNat 0x0a000019, .ofNat 0x0a000005, some 5⟩ (by decide +kernel) (by decide +kernel)
      (by decide +kernel)

end Manet.RouteTable
