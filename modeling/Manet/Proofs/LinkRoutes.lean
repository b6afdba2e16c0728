import Manet.Proofs.Ownership
import Manet.Proofs.Unnoticed

/-!
# Routes over links

The routes that a router computes start at its live links to symmetric neighbours: there is a route
of distance 1 to the end of every such link, and no route starts elsewhere. So a link that is
symmetric and not lost has its route unless it is idle (`Router.routed_or_isIdle`). A link falls
idle only by an operation that reassigns the interface at the end of a link, where interfaces are
chained, or because it outlives a loss that the link layer reported.
-/

namespace Manet

variable {F : Family}

namespace RouteTable

variable {T : Tables F} {locals : List (Address F)} {now : Time}

/-- The table has a route of distance 1 to `a`. -/
def IsDirect (R : RouteTable F) (a : Address F) : Prop :=
  ∃ route, R.get? a = some route ∧ route.distance = 1

/-- A live link to a symmetric neighbour ends at `a`. -/
def IsFirstHop (T : Tables F) (now : Time) (a : Address F) : Prop :=
  ∃ l ∈ T.links, l.isAlive now = true ∧ isSymmetricNeighbour T (T.mainAddress l.neighbour) = true ∧
    l.neighbour = a

/-- All routes of the table start at live links to symmetric neighbours. -/
def StartsAtLinks (T : Tables F) (now : Time) (R : RouteTable F) : Prop :=
  ∀ route ∈ R, IsFirstHop T now route.nextHop

/-! ## Steps of the computation -/

theorem IsDirect.insert {R : RouteTable F} {a : Address F} {route : Route F}
    (h : route.destination = a → route.distance = 1) (hR : route.destination ≠ a → R.IsDirect a) :
    IsDirect (R.insert route) a := by
  have hget : (R.insert route).get? a = if route.destination = a then some route else R.get? a :=
    Table.get?_insert ..
  unfold IsDirect
  rw [hget]
  split
  · rename_i hd
    exact ⟨route, rfl, h hd⟩
  · rename_i hd
    exact hR hd

theorem StartsAtLinks.insert {R : RouteTable F} {route : Route F} (hR : StartsAtLinks T now R)
    (h : IsFirstHop T now route.nextHop) : StartsAtLinks T now (R.insert route) := fun other ho => by
  obtain rfl | ⟨ho, -⟩ := Table.mem_insert.mp ho
  · exact h
  · exact hR other ho

/-- All that is done once the routes to neighbours are there: a route is added that starts like
another and takes the place of no direct one. -/
def Extends (R R' : RouteTable F) : Prop :=
  R' = R ∨ ∃ a via route, R.get? a = some via ∧ route.nextHop = via.nextHop ∧
    ¬ R.IsDirect route.destination ∧ R' = R.insert route

theorem Extends.insert {R : RouteTable F} {a : Address F} {via route : Route F}
    (hvia : R.get? a = some via) (hnext : route.nextHop = via.nextHop)
    (hnot : ¬ R.IsDirect route.destination) : Extends R (R.insert route) :=
  .inr ⟨a, via, route, hvia, hnext, hnot, rfl⟩

theorem Extends.isDirect {R R' : RouteTable F} {a : Address F} (h : Extends R R') (hR : R.IsDirect a) :
    R'.IsDirect a := by
  obtain rfl | ⟨_, _, route, -, -, hnot, rfl⟩ := h
  · exact hR
  · exact .insert (fun hd => absurd (hd ▸ hR) hnot) fun _ => hR

theorem Extends.startsAtLinks {R R' : RouteTable F} (h : Extends R R') (hR : StartsAtLinks T now R) :
    StartsAtLinks T now R' := by
  obtain rfl | ⟨_, via, route, hvia, hnext, -, rfl⟩ := h
  · exact hR
  · exact hR.insert (hnext ▸ hR via (Table.get?_eq_some_iff.mp hvia).1)

theorem not_isDirect_of_lacksRoute {R : RouteTable F} {a : Address F} (h : lacksRoute locals R a = true) :
    ¬ R.IsDirect a := by
  rintro ⟨route, hget, -⟩
  simp [lacksRoute, Table.contains_eq_isSome, hget] at h

theorem addTwoHop_extends (T : Tables F) (locals : List (Address F)) (R : RouteTable F) (t : TwoHopTuple F) :
    Extends R (addTwoHop T locals R t) := by
  unfold addTwoHop
  split
  · exact .inl rfl
  · split
    · exact .inl rfl
    · split
      · exact .inl rfl
      · rename_i via hvia
        split
        · exact .inl rfl
        · rename_i hkeeps
          refine .insert hvia rfl ?_
          rintro ⟨route, hget, hdist⟩
          refine hkeeps ?_
          -- a direct route is too short to be replaced
          rw [hget, Option.any_some, keeps, hdist]
          rfl

theorem addAdvertised_extends (locals : List (Address F)) (h : Nat) (R : RouteTable F)
    (t : TopologyTuple F) : Extends R (addAdvertised locals h R t) := by
  unfold addAdvertised
  split
  · rename_i hlacks
    split
    · exact .inl rfl
    · rename_i parent hparent
      split
      · exact .insert hparent rfl (not_isDirect_of_lacksRoute hlacks)
      · exact .inl rfl
  · exact .inl rfl

theorem addInterface_extends (locals : List (Address F)) (R : RouteTable F) (t : AssociationTuple F) :
    Extends R (addInterface locals R t) := by
  unfold addInterface
  split
  · rename_i hlacks
    split
    · exact .inl rfl
    · rename_i main hmain
      exact .insert hmain rfl (not_isDirect_of_lacksRoute hlacks)
  · exact .inl rfl

/-- What is kept by the two ways to add a route to a distant node is kept by any number of layers. -/
theorem addLayers_induction {P : RouteTable F → Prop}
    (hadvertised : ∀ h R t, P R → P (addAdvertised locals h R t))
    (hinterface : ∀ R t, P R → P (addInterface locals R t)) (layers h : Nat) {R : RouteTable F}
    (hR : P R) : P (addLayers T locals layers h R) := by
  induction layers generalizing h R with
  | zero => exact hR
  | succ layers ih =>
    unfold addLayers
    dsimp only
    split
    · exact hR
    · exact ih _ (List.foldlRecOn (motive := P) _ _
        (List.foldlRecOn (motive := P) _ _ hR fun R hR t _ => hadvertised h R t hR)
        fun R hR t _ => hinterface R t hR)

/-- What holds of the routes to neighbours, and is kept by each of the three ways to add a route, holds
of all routes. -/
theorem compute_induction_by_phase {P : RouteTable F → Prop} (hneighbours : P (neighbourRoutes T now))
    (htwoHop : ∀ R t, P R → P (addTwoHop T locals R t))
    (hadvertised : ∀ h R t, P R → P (addAdvertised locals h R t))
    (hinterface : ∀ R t, P R → P (addInterface locals R t)) : P (compute T locals now) :=
  addLayers_induction hadvertised hinterface _ _
    (List.foldlRecOn (motive := P) _ _ hneighbours fun R hR t _ => htwoHop R t hR)

/-- What holds of the routes to neighbours, and is kept as routes are added, holds of all routes. -/
theorem compute_induction {P : RouteTable F → Prop} (hneighbours : P (neighbourRoutes T now))
    (hstep : ∀ R R', Extends R R' → P R → P R') : P (compute T locals now) :=
  compute_induction_by_phase hneighbours (fun R t => hstep R _ (addTwoHop_extends T locals R t))
    (fun h R t => hstep R _ (addAdvertised_extends locals h R t))
    fun R t => hstep R _ (addInterface_extends locals R t)

/-! ## Routes to neighbours -/

theorem mem_linksTo {l : LinkTuple F} {main : Address F} :
    l ∈ linksTo T now main ↔ l ∈ T.links ∧ l.isAlive now = true ∧ T.mainAddress l.neighbour = main := by
  rw [linksTo, List.mem_filter, decide_eq_true_eq]
  exact Iff.rfl

/-- Routes over links are added, and what each of them keeps holds in the end. -/
theorem addNeighbour_induction {P : RouteTable F → Prop} {main : Address F}
    (h : ∀ R, ∀ l ∈ linksTo T now main, ∀ a, P R → P (R.insert (overLink l a))) {R : RouteTable F}
    (hR : P ((linksTo T now main).foldl (fun R l => R.insert (overLink l l.neighbour)) R)) :
    P (addNeighbour T now R main) := by
  unfold addNeighbour
  dsimp only
  split
  · rename_i l hlast
    split
    · exact hR
    · exact h _ l (List.mem_of_getLast? hlast) main hR
  · exact hR

theorem foldl_isDirect {α : Type} {f : RouteTable F → α → RouteTable F} {a : Address F}
    (hf : ∀ R x, R.IsDirect a → (f R x).IsDirect a) (l : List α) {R : RouteTable F} (hR : R.IsDirect a) :
    (l.foldl f R).IsDirect a :=
  List.foldlRecOn (motive := fun R => IsDirect R a) l f hR fun R hR x _ => hf R x hR

/-- One step adds the direct route, and the others leave it in place. -/
theorem foldl_isDirect_of_mem {α : Type} {f : RouteTable F → α → RouteTable F} {a : Address F}
    (hf : ∀ R x, R.IsDirect a → (f R x).IsDirect a) {l : List α} {x : α} (hx : x ∈ l)
    (hadd : ∀ R, (f R x).IsDirect a) (R : RouteTable F) : (l.foldl f R).IsDirect a := by
  obtain ⟨before, after, rfl⟩ := List.append_of_mem hx
  rw [List.foldl_append, List.foldl_cons]
  exact foldl_isDirect hf after (hadd _)

theorem insert_overLink_isDirect {a : Address F} (R : RouteTable F) (l : LinkTuple F) (b : Address F)
    (hR : R.IsDirect a) : IsDirect (R.insert (overLink l b)) a :=
  .insert (fun _ => rfl) fun _ => hR

theorem addNeighbour_isDirect {a : Address F} (R : RouteTable F) (main : Address F) (hR : R.IsDirect a) :
    (addNeighbour T now R main).IsDirect a :=
  addNeighbour_induction (P := fun R => R.IsDirect a) (fun R l _ b => insert_overLink_isDirect R l b)
    (foldl_isDirect (fun R l => insert_overLink_isDirect R l l.neighbour) _ hR)

theorem addNeighbour_isDirect_of_mem {l : LinkTuple F} {main : Address F} (hl : l ∈ linksTo T now main)
    (R : RouteTable F) : (addNeighbour T now R main).IsDirect l.neighbour :=
  addNeighbour_induction (P := fun R => R.IsDirect l.neighbour)
    (fun R l' _ b => insert_overLink_isDirect R l' b)
    (foldl_isDirect_of_mem (fun R l' => insert_overLink_isDirect R l' l'.neighbour) hl
      (fun _ => .insert (fun _ => rfl) fun hd => absurd rfl hd) R)

theorem isSymmetricNeighbour_iff {a : Address F} : isSymmetricNeighbour T a = true ↔
    a ∈ (T.neighbours.toList.filter (·.symmetric)).map (·.main) := by
  rw [isSymmetricNeighbour, Option.any_eq_true, List.mem_map]
  constructor
  · rintro ⟨n, hget, hs⟩
    obtain ⟨hn, rfl⟩ := Table.get?_eq_some_iff.mp hget
    exact ⟨n, List.mem_filter.mpr ⟨hn, hs⟩, rfl⟩
  · rintro ⟨n, hn, rfl⟩
    obtain ⟨hn, hs⟩ := List.mem_filter.mp hn
    exact ⟨n, Table.get?_eq_some_iff.mpr ⟨hn, rfl⟩, hs⟩

theorem neighbourRoutes_startsAtLinks (T : Tables F) (now : Time) :
    StartsAtLinks T now (neighbourRoutes T now) := by
  refine List.foldlRecOn (motive := StartsAtLinks T now) _ _ (fun _ hr => absurd hr (Table.not_mem_empty _)) ?_
  intro R hR main hm
  have hlink (R : RouteTable F) (l : LinkTuple F) (hl : l ∈ linksTo T now main) (a : Address F)
      (hR : StartsAtLinks T now R) : StartsAtLinks T now (R.insert (overLink l a)) := by
    obtain ⟨hmem, halive, rfl⟩ := mem_linksTo.mp hl
    exact hR.insert ⟨l, hmem, halive, isSymmetricNeighbour_iff.mpr hm, rfl⟩
  exact addNeighbour_induction hlink
    (List.foldlRecOn _ _ hR fun R hR l hl => hlink R l hl l.neighbour hR)

/-! ## All routes -/

/-- There is a direct route to the end of a live link to a symmetric neighbour. -/
theorem compute_isDirect {l : LinkTuple F} (hl : l ∈ T.links) (halive : l.isAlive now = true)
    (hs : isSymmetricNeighbour T (T.mainAddress l.neighbour) = true) (locals : List (Address F)) :
    (compute T locals now).IsDirect l.neighbour :=
  compute_induction (P := fun R => R.IsDirect l.neighbour)
    (foldl_isDirect_of_mem addNeighbour_isDirect (isSymmetricNeighbour_iff.mp hs)
      (addNeighbour_isDirect_of_mem (mem_linksTo.mpr ⟨hl, halive, rfl⟩)) ∅) fun _ _ h => h.isDirect

/-- Every route starts at a live link to a symmetric neighbour. -/
theorem compute_startsAtLinks (T : Tables F) (locals : List (Address F)) (now : Time) :
    StartsAtLinks T now (compute T locals now) :=
  compute_induction (neighbourRoutes_startsAtLinks T now) fun _ _ h => h.startsAtLinks

end RouteTable

/-! ## Orderly runs -/

/-- Whether the link is symmetric while the link layer does not call it lost any more. -/
def LinkTuple.outlivesLoss (t : LinkTuple F) (now : Time) : Bool :=
  t.isSymmetric now ∧ t.lostTime.any fun lost => lost ≤ now

/-- A link that is idle was so before, unless a loss has passed. -/
theorem Tables.IsIdle.earlier {T : Tables F} {t now : Time} {l : LinkTuple F} (h : T.IsIdle now l)
    (ht : t ≤ now) : T.IsIdle t l ∨ l.outlivesLoss now = true := by
  cases hlost : l.lostTime with
  | none =>
    refine .inl ⟨h.mem, decide_eq_true (Nat.lt_of_le_of_lt ht (of_decide_eq_true h.symmetric)), ?_, h.unstored⟩
    rw [LinkTuple.isLost, hlost, Option.any_none]
  | some lost =>
    have hover := h.notLost
    rw [LinkTuple.isLost, hlost, Option.any_some, decide_eq_false_iff_not] at hover
    refine .inr (decide_eq_true ⟨h.symmetric, ?_⟩)
    rw [hlost, Option.any_some]
    exact decide_eq_true (Nat.le_of_not_lt hover)

/-- No link ends at an interface that the operation reassigns, interfaces are not chained after it,
and no link outlives a loss before it. -/
def Operation.IsOrderly (now : Time) (r : Router F) (op : Operation F) : Prop :=
  op.IsSteady now r ∧ ¬ (r.apply now op).tables.IsChained ∧
    ∀ l ∈ r.tables.links, l.outlivesLoss now = false

instance (now : Time) (r : Router F) (op : Operation F) : Decidable (op.IsOrderly now r) :=
  have : Decidable (∀ l ∈ r.tables.links, l.outlivesLoss now = false) :=
    inferInstanceAs (Decidable (∀ l ∈ r.tables.links.toList, _))
  inferInstanceAs (Decidable (_ ∧ _ ∧ _))

namespace Router

variable {now : Time} {r r' : Router F}

/-- A link is idle after an operation only if it was so before or outlives a loss, if the operation
reassigns the interface at the end of a link, or where interfaces are chained. -/
theorem apply_isIdle {t : Time} (ht : t ≤ now) {op : Operation F} {l : LinkTuple F}
    (h : (r.apply now op).tables.IsIdle now l) :
    (∃ l₀ ∈ r.tables.links, Keyed.key l₀ = Keyed.key l ∧
      (r.tables.IsIdle t l₀ ∨ l₀.outlivesLoss now = true)) ∨
    (∃ l' ∈ (r.apply now op).tables.links, op.Reassigns now r l'.neighbour) ∨
    (r.apply now op).tables.IsChained := by
  by_cases hsteady : op.IsSteady now r
  · by_cases hchained : (r.apply now op).tables.IsChained
    · exact .inr (.inr hchained)
    · obtain ⟨l₀, hidle, hk⟩ := (apply_calm hsteady).idle hchained l h
      exact .inl ⟨l₀, hidle.mem, hk, hidle.earlier ht⟩
  · refine .inr (.inl (Classical.byContradiction fun hno => hsteady fun l' hl' hre => ?_))
    exact hno ⟨l', hl', hre⟩

/-- No link is idle in a run of orderly operations. -/
theorem ReachableBy.not_isIdle {t : Time} (h : r.ReachableBy (fun now r op => op.IsOrderly now r) t)
    (l : LinkTuple F) : ¬ r.tables.IsIdle t l := by
  induction h generalizing l with
  | create => exact fun hl => nomatch hl.mem
  | apply op _ ht hop ih =>
    obtain ⟨hsteady, hunchained, hlosses⟩ := hop
    intro hl
    obtain ⟨l₀, hmem, -, hidle | hlapsed⟩ | ⟨l', hl', hre⟩ | hchained := apply_isIdle ht hl
    · exact ih l₀ hidle
    · exact Bool.false_ne_true ((hlosses l₀ hmem).symm.trans hlapsed)
    · exact hsteady l' hl' hre
    · exact hunchained hchained

theorem handlePacket_eq_ok {id : InterfaceId} {sender : Address F} {datagram : Octets}
    (h : (r.handlePacket id sender datagram now).isOk = true) :
    r.handlePacket id sender datagram now = .ok (r.apply now (.packet id sender datagram)) := by
  rw [apply]
  cases hp : r.handlePacket id sender datagram now with
  | ok r' => rfl
  | error e =>
    rw [hp] at h
    cases h

theorem handlePacket_routesCurrent (hr : r.running = true) {id : InterfaceId} {sender : Address F}
    {datagram : Octets} (hp : r.handlePacket id sender datagram now = .ok r') : r'.RoutesCurrent now := by
  rw [handlePacket, if_pos hr] at hp
  split at hp
  · cases hp
  · split at hp
    · cases hp
    · cases hp
      exact updateRoutes_routesCurrent _ now

/-- Once a datagram was taken in, a live link to a symmetric neighbour has a direct route, and no
route starts at another link. -/
theorem handlePacket_routes (hr : r.running = true) {id : InterfaceId} {sender : Address F}
    {datagram : Octets} (hp : r.handlePacket id sender datagram now = .ok r') {l : LinkTuple F}
    (hl : l ∈ r'.tables.links) (halive : l.isAlive now = true) :
    (r'.hasSymmetricNeighbour (r'.mainAddress l.neighbour) = true → r'.routes.IsDirect l.neighbour) ∧
      (r'.hasSymmetricNeighbour (r'.mainAddress l.neighbour) = false →
        ∀ route ∈ r'.routes, route.nextHop ≠ l.neighbour) := by
  rw [handlePacket_routesCurrent hr hp]
  refine ⟨fun hs => RouteTable.compute_isDirect hl halive hs _, fun hs route hroute he => ?_⟩
  obtain ⟨l', -, -, hs', hend⟩ := RouteTable.compute_startsAtLinks _ _ _ route hroute
  rw [hend, he] at hs'
  exact Bool.false_ne_true (hs.symm.trans hs')

/-- After a datagram was taken in, a link that is alive, symmetric and not lost has a direct route
unless it is idle, and then no route starts at it. A link falls idle only if it outlives a loss, by
an operation that reassigns the interface at the end of a link, or where interfaces are chained. In
a run without any of these, every such link has its route. -/
theorem routed_or_isIdle :
    (∀ (r r' : Router F) (now : Time) (id : InterfaceId) (sender : Address F) (datagram : Octets),
      r.running = true → r.handlePacket id sender datagram now = .ok r' →
      ∀ l ∈ r'.tables.links, l.isAlive now = true → l.isSymmetric now = true → l.isLost now = false →
        (¬ r'.tables.IsIdle now l → r'.routes.IsDirect l.neighbour) ∧
        (r'.tables.IsIdle now l → ∀ route ∈ r'.routes, route.nextHop ≠ l.neighbour)) ∧
    (∀ (r : Router F) (t now : Time) (op : Operation F) (l : LinkTuple F), t ≤ now →
      (r.apply now op).tables.IsIdle now l →
        (∃ l₀ ∈ r.tables.links, Keyed.key l₀ = Keyed.key l ∧
          (r.tables.IsIdle t l₀ ∨ l₀.outlivesLoss now = true)) ∨
        (∃ l' ∈ (r.apply now op).tables.links, op.Reassigns now r l'.neighbour) ∨
        (r.apply now op).tables.IsChained) ∧
    (∀ (r r' : Router F) (t now : Time) (id : InterfaceId) (sender : Address F) (datagram : Octets),
      r.ReachableBy (fun now r op => op.IsOrderly now r) t → t ≤ now →
      (Operation.packet id sender datagram).IsOrderly now r →
      r.running = true → r.handlePacket id sender datagram now = .ok r' →
      ∀ l ∈ r'.tables.links, l.isAlive now = true → l.isSymmetric now = true → l.isLost now = false →
        r'.routes.IsDirect l.neighbour) := by
  have hrouted {r r' : Router F} {now : Time} {id : InterfaceId} {sender : Address F} {datagram : Octets}
      (hr : r.running = true) (hp : r.handlePacket id sender datagram now = .ok r') {l : LinkTuple F}
      (hl : l ∈ r'.tables.links) (halive : l.isAlive now = true) (hsym : l.isSymmetric now = true)
      (hlost : l.isLost now = false) (hidle : ¬ r'.tables.IsIdle now l) : r'.routes.IsDirect l.neighbour := by
    refine (handlePacket_routes hr hp hl halive).1 (eq_true_of_ne_false fun hs => ?_)
    exact hidle ⟨hl, hsym, hlost, hs⟩
  refine ⟨fun r r' now id sender datagram hr hp l hl halive hsym hlost => ⟨?_, fun hidle => ?_⟩,
    fun r t now op l ht hidle => apply_isIdle ht hidle,
    fun r r' t now id sender datagram h ht hop hr hp l hl halive hsym hlost => ?_⟩
  · exact hrouted hr hp hl halive hsym hlost
  · exact (handlePacket_routes hr hp hl halive).2 hidle.unstored
  · have happly : r.apply now (.packet id sender datagram) = r' := by rw [apply, hp]
    have hrun : (r.apply now (.packet id sender datagram)).ReachableBy
        (fun now r op => op.IsOrderly now r) now := .apply _ h ht hop
    exact hrouted hr hp hl halive hsym hlost fun hidle => hrun.not_isIdle l (happly ▸ hidle)

/-! The link of the small run has its route. The link to 10.0.0.2 loses its own with the MID that
makes 10.0.0.2 an interface of 10.0.0.9. -/

/-- The node of the small run before the HELLO. -/
def started : Router .ipv4 := (create sampleAddress {} (.cycle #[])).apply 0 sampleStart

/-- The node whose neighbour 10.0.0.2 turns out to be an interface of 10.0.0.9, before the MID. -/
def unrenamed : Router .ipv4 :=
  started.apply 0 (.packet (.number 0) (.ofNat 0x0a000002) secondaryHello)

/-- Its link. -/
def renamedLink : LinkTuple .ipv4 where
  iface := sampleAddress
  neighbour := .ofNat 0x0a000002
  symTime := .ofSeconds 6
  asymTime := .ofSeconds 6
  time := .ofSeconds 12
  lostTime := none

theorem started_orderly : started.ReachableBy (fun now r op => op.IsOrderly now r) 0 :=
  .apply _ (.create _ _ _) (Nat.le_refl 0) (by decide +kernel)

theorem sampleReception_ok :
    started.handlePacket (.number 0) (.ofNat 0x0a000002) sampleHello 0 = .ok sample :=
  handlePacket_eq_ok (by decide +kernel)

theorem secondaryMid_ok :
    unrenamed.handlePacket (.number 0) (.ofNat 0x0a000002) secondaryMid 0 = .ok renamed :=
  handlePacket_eq_ok (by decide +kernel)

theorem routed_or_isIdle_samples :
    (∀ l ∈ sample.tables.links, sample.routes.IsDirect l.neighbour) ∧
      renamed.tables.IsIdle 0 renamedLink ∧ renamedLink.isAlive 0 = true ∧
      (∀ route ∈ renamed.routes, route.nextHop ≠ renamedLink.neighbour) ∧
      ¬ renamed.routes.IsDirect renamedLink.neighbour := by
  have hsample : ∀ l ∈ sample.tables.links.toList,
      l.isAlive 0 = true ∧ l.isSymmetric 0 = true ∧ l.isLost 0 = false := by decide +kernel
  have hidle : renamed.tables.IsIdle 0 renamedLink :=
    ⟨by decide +kernel, by decide, by decide, by decide +kernel⟩
  refine ⟨fun l hl => ?_, hidle, by decide, ?_, ?_⟩
  · obtain ⟨halive, hsym, hlost⟩ := hsample l hl
    exact routed_or_isIdle.2.2 _ _ 0 0 _ _ _ started_orderly (Nat.le_refl 0) (by decide +kernel)
      (by decide +kernel) sampleReception_ok l hl halive hsym hlost
  · exact (routed_or_isIdle.1 _ _ 0 _ _ _ (by decide +kernel) secondaryMid_ok renamedLink hidle.mem
      (by decide) hidle.symmetric hidle.notLost).2 hidle
  · rintro ⟨route, hget, -⟩
    have hnone : renamed.routes.get? renamedLink.neighbour = none := by decide +kernel
    exact Option.some_ne_none _ (hget.symm.trans hnone)

end Router

end Manet
