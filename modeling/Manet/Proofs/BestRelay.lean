import Manet.Proofs.RouteLayers

/-!
# The relay of a route of two hops

Several neighbours may relay to a node two hops away. The computation looks at them one after the other,
and compares each with the relay of the route that is there, which it finds by resolving the next hop of
that route. Where the main addresses of symmetric neighbours resolve to themselves, the next hop of the
route to a neighbour resolves to that neighbour (`neighbourRoutes_resolves`), so the comparison is with
the right one and the loop computes a maximum: of the greatest willingness, and then of the greatest
address, since tuples come in the order of their neighbours (`Carries.addTwoHop`, `compute_best`).
-/

namespace Manet.RouteTable

variable {F : Family} {T : Tables F} {locals : List (Address F)} {now : Time} {R : RouteTable F}

/-! ## Routes to neighbours -/

/-- The routes to neighbours lead over live links to them: to the end of the link, or to the main address
that it resolves to. -/
theorem eq_overLink_of_mem_neighbourRoutes {route : Route F} (h : route ∈ neighbourRoutes T now) :
    ∃ main, isSymmetricNeighbour T main = true ∧ ∃ l ∈ linksTo T now main,
      (route.destination = l.neighbour ∨ route.destination = main) ∧
        route = overLink l route.destination := by
  let P : RouteTable F → Prop := fun R => ∀ route ∈ R, ∃ main, isSymmetricNeighbour T main = true ∧
    ∃ l ∈ linksTo T now main, (route.destination = l.neighbour ∨ route.destination = main) ∧
      route = overLink l route.destination
  have hinsert {main a : Address F} {l : LinkTuple F} (hs : isSymmetricNeighbour T main = true)
      (hl : l ∈ linksTo T now main) (ha : a = l.neighbour ∨ a = main) {R : RouteTable F} (hR : P R) :
      P (R.insert (overLink l a)) := by
    intro route hr
    obtain rfl | ⟨hr, -⟩ := Table.mem_insert.mp hr
    · exact ⟨main, hs, l, hl, ha, rfl⟩
    · exact hR route hr
  refine List.foldlRecOn (motive := P) _ _ (fun _ hr => absurd hr (Table.not_mem_empty _))
    (fun R hR main hm => ?_) route h
  have hs := isSymmetricNeighbour_iff.mpr hm
  have hlinks : P ((linksTo T now main).foldl (fun R l => R.insert (overLink l l.neighbour)) R) :=
    List.foldlRecOn (motive := P) _ _ hR fun R hR l hl => hinsert hs hl (.inl rfl) hR
  unfold addNeighbour
  dsimp only
  split
  · rename_i l hlast
    split
    · exact hlinks
    · exact hinsert hs (List.mem_of_getLast? hlast) (.inr rfl) hlinks
  · exact hlinks

theorem isDirect_of_get?_neighbourRoutes {a : Address F} {route : Route F}
    (h : (neighbourRoutes T now).get? a = some route) : (neighbourRoutes T now).IsDirect a := by
  obtain ⟨_, -, l, -, -, he⟩ := eq_overLink_of_mem_neighbourRoutes (Table.get?_eq_some_iff.mp h).1
  exact ⟨route, h, he ▸ rfl⟩

/-- A live link to a symmetric neighbour gives a route to its main address. -/
theorem addNeighbour_isDirect_main {main : Address F} {l : LinkTuple F} (hl : l ∈ linksTo T now main)
    (R : RouteTable F) : (addNeighbour T now R main).IsDirect main := by
  unfold addNeighbour
  dsimp only
  split
  · split
    · rename_i hnamed
      obtain ⟨l', hl', he⟩ := List.any_eq_true.mp hnamed
      obtain rfl := of_decide_eq_true he
      exact foldl_isDirect_of_mem (fun R l => insert_overLink_isDirect R l l.neighbour) hl'
        (fun _ => .insert (fun _ => rfl) fun hd => absurd rfl hd) R
    · exact .insert (fun _ => rfl) fun hd => absurd rfl hd
  · rename_i hnone
    rw [List.getLast?_eq_none_iff] at hnone
    rw [hnone] at hl
    cases hl

/-- There is a route to a symmetric neighbour iff a live link resolves to it, and its next hop resolves
to the neighbour. -/
theorem neighbourRoutes_resolves {main : Address F} (hs : isSymmetricNeighbour T main = true)
    (hmain : T.mainAddress main = main) :
    (∀ via, (neighbourRoutes T now).get? main = some via →
      T.mainAddress via.nextHop = main ∧ ∃ l, l ∈ linksTo T now main) ∧
    (∀ l ∈ linksTo T now main, ∃ via, (neighbourRoutes T now).get? main = some via) := by
  refine ⟨fun via hvia => ?_, fun l hl => ?_⟩
  · obtain ⟨hmem, hd : via.destination = main⟩ := Table.get?_eq_some_iff.mp hvia
    obtain ⟨m, -, l, hl, hend, he⟩ := eq_overLink_of_mem_neighbourRoutes hmem
    obtain ⟨-, -, hresolves⟩ := mem_linksTo.mp hl
    have hm : m = main := by
      rcases hend with hend | hend
      · rw [← hresolves, ← hend, hd, hmain]
      · exact hend.symm.trans hd
    subst hm
    rw [he]
    exact ⟨hresolves, l, hl⟩
  · obtain ⟨via, hvia, -⟩ := foldl_isDirect_of_mem (f := addNeighbour T now)
      (fun R m => addNeighbour_isDirect R m) (isSymmetricNeighbour_iff.mp hs)
      (addNeighbour_isDirect_main hl) ∅
    exact ⟨via, hvia⟩

/-! ## Relays -/

/-- A symmetric neighbour that relays, to which a live link leads, and that announced `d` by one of the
two-hop tuples `ts`. -/
structure IsRelayTo (T : Tables F) (now : Time) (ts : List (TwoHopTuple F)) (d : Address F)
    (n : NeighbourTuple F) : Prop where
  mem : n ∈ T.neighbours
  symmetric : n.symmetric = true
  willing : n.willingness ≠ .never
  announced : ∃ t ∈ ts, t.neighbour = n.main ∧ t.twoHop = d
  linked : ∃ l ∈ T.links, l.isAlive now = true ∧ T.mainAddress l.neighbour = n.main

/-- The neighbour `n` is less willing than `m`, or as willing and of a smaller address. -/
def IsBelow (n m : NeighbourTuple F) : Prop :=
  n.willingness < m.willingness ∨ n.willingness = m.willingness ∧ KeyOrder.before n.main m.main

/-- The best of all relays to `d`. -/
structure IsBestRelayTo (T : Tables F) (now : Time) (ts : List (TwoHopTuple F)) (d : Address F)
    (best : NeighbourTuple F) : Prop extends IsRelayTo T now ts d best where
  isBelow : ∀ n, IsRelayTo T now ts d n → n = best ∨ IsBelow n best

variable {ts : List (TwoHopTuple F)} {d : Address F} {n : NeighbourTuple F}

theorem IsRelayTo.isSymmetricNeighbour (h : IsRelayTo T now ts d n) :
    isSymmetricNeighbour T n.main = true := by
  have hget : T.neighbours.get? n.main = some n := Table.get?_eq_some_iff.mpr ⟨h.mem, rfl⟩
  rw [RouteTable.isSymmetricNeighbour, hget]
  exact h.symmetric

theorem IsRelayTo.mono {ts' : List (TwoHopTuple F)} (h : IsRelayTo T now ts d n)
    (hsub : ∀ t ∈ ts, t.twoHop = d → t ∈ ts') : IsRelayTo T now ts' d n where
  mem := h.mem
  symmetric := h.symmetric
  willing := h.willing
  announced := by
    obtain ⟨t, ht, hn, hd⟩ := h.announced
    exact ⟨t, hsub t ht hd, hn, hd⟩
  linked := h.linked

/-- The relays by one more tuple are those before and the neighbour of the tuple. -/
theorem IsRelayTo.of_append {t : TwoHopTuple F} (h : IsRelayTo T now (ts ++ [t]) d n) :
    IsRelayTo T now ts d n ∨ n.main = t.neighbour ∧ t.twoHop = d := by
  obtain ⟨t', ht', hn, hd⟩ := h.announced
  rcases List.mem_append.mp ht' with hold | hnew
  · exact .inl ⟨h.mem, h.symmetric, h.willing, ⟨t', hold, hn, hd⟩, h.linked⟩
  · obtain rfl := List.mem_singleton.mp hnew
    exact .inr ⟨hn.symm, hd⟩

/-- By a tuple of the neighbour `relay`, no other one comes in. -/
theorem IsRelayTo.of_append_eq {t : TwoHopTuple F} {relay : NeighbourTuple F}
    (h : IsRelayTo T now (ts ++ [t]) d n) (hrelay : relay ∈ T.neighbours) (ht : relay.main = t.neighbour) :
    IsRelayTo T now ts d n ∨ n = relay :=
  h.of_append.imp_right fun hm => Table.key_inj_of_mem T.neighbours.sorted h.mem hrelay (hm.1.trans ht.symm)

/-- Tuples come in the order of neighbours, so those who announced `d` earlier have smaller addresses. -/
theorem IsRelayTo.before {t : TwoHopTuple F} (h : IsRelayTo T now ts d n)
    (hlater : ∀ t' ∈ ts, KeyOrder.before (Keyed.key t') (Keyed.key t)) (ht : t.twoHop = d) :
    KeyOrder.before n.main t.neighbour := by
  obtain ⟨t', ht', hneighbour, hd'⟩ := h.announced
  rcases hlater t' ht' with hlt | ⟨-, hlt⟩
  · rw [← hneighbour]
    exact hlt
  · have hsame : KeyOrder.before t'.twoHop t.twoHop := hlt
    rw [hd', ht] at hsame
    exact absurd hsame (KeyOrder.irrefl d)

theorem IsBelow.willingness_le {m : NeighbourTuple F} (h : IsBelow n m) : n.willingness ≤ m.willingness := by
  rcases h with hlt | ⟨heq, -⟩
  · exact Fin.le_of_lt hlt
  · exact Fin.le_of_eq heq

/-- A route of two hops is kept from a relay iff the neighbour that it starts with is more willing. -/
theorem keeps_eq {route : Route F} (hdistance : route.distance = 2) (hn : n ∈ T.neighbours)
    (h : T.mainAddress route.nextHop = n.main) (w : Willingness) :
    keeps T route w = decide (w < n.willingness) := by
  have hget : T.neighbours.get? n.main = some n := Table.get?_eq_some_iff.mpr ⟨hn, rfl⟩
  rw [keeps, h, hget, hdistance]
  simp

theorem relayOf?_eq_some_iff {t : TwoHopTuple F} :
    relayOf? T t = some n ↔
      n ∈ T.neighbours ∧ n.main = t.neighbour ∧ n.symmetric = true ∧ n.willingness ≠ .never := by
  rw [relayOf?, Option.filter_eq_some_iff, Table.get?_eq_some_iff, decide_eq_true_eq, and_assoc]
  exact Iff.rfl

/-! ## The loop -/

/-- The loop has looked at the tuples `ts`: the routes to symmetric neighbours are as before, and the
route to `d` goes over the best relay so far. -/
structure Carries (T : Tables F) (now : Time) (ts : List (TwoHopTuple F)) (d : Address F)
    (R : RouteTable F) : Prop where
  near : ∀ m, isSymmetricNeighbour T m = true → R.get? m = (neighbourRoutes T now).get? m
  route : (∀ n, ¬ IsRelayTo T now ts d n) ∧ R.get? d = none ∨
    ∃ best via, IsBestRelayTo T now ts d best ∧ (neighbourRoutes T now).get? best.main = some via ∧
      R.get? d = some { via with destination := d, distance := 2, path := [best.main] }

namespace Carries

variable {t : TwoHopTuple F}

/-- A tuple that brings no relay to `d` leaves it with its route. -/
theorem of_no_relay {R' : RouteTable F} (h : Carries T now ts d R)
    (hnone : ∀ n, IsRelayTo T now (ts ++ [t]) d n → IsRelayTo T now ts d n)
    (hnear : ∀ m, isSymmetricNeighbour T m = true → R'.get? m = R.get? m) (hd : R'.get? d = R.get? d) :
    Carries T now (ts ++ [t]) d R' where
  near m hm := (hnear m hm).trans (h.near m hm)
  route := by
    rcases h.route with ⟨hno, hget⟩ | ⟨best, via, hbest, hvia, hget⟩
    · exact .inl ⟨fun n hn => hno n (hnone n hn), hd.trans hget⟩
    · refine .inr ⟨best, via, ⟨?_, fun n hn => hbest.isBelow n (hnone n hn)⟩, hvia, hd.trans hget⟩
      exact hbest.toIsRelayTo.mono fun t ht _ => List.mem_append_left _ ht

/-- A relay that is above all before it takes the route over. -/
theorem insert_relay (h : Carries T now ts d R) (hd : isSymmetricNeighbour T d = false)
    {relay : NeighbourTuple F} {via : Route F} (hrelay : IsRelayTo T now (ts ++ [t]) d relay)
    (ht : relay.main = t.neighbour) (hvia : R.get? relay.main = some via)
    (habove : ∀ n, IsRelayTo T now ts d n → IsBelow n relay) :
    Carries T now (ts ++ [t]) d
      (R.insert { via with destination := d, distance := 2, path := [relay.main] }) := by
  have hvia' : (neighbourRoutes T now).get? relay.main = some via :=
    (h.near _ hrelay.isSymmetricNeighbour).symm.trans hvia
  refine ⟨fun m hm => ?_, .inr ⟨relay, via, ⟨hrelay, fun n hn => ?_⟩, hvia', get?_insert_self R _⟩⟩
  · rw [Table.get?_insert, if_neg, h.near m hm]
    rintro rfl
    exact Bool.false_ne_true (hd.symm.trans hm)
  · exact (hn.of_append_eq hrelay.mem ht).symm.imp_right (habove n)

/-- A relay takes the route over unless the one that has it is more willing. -/
theorem of_relay (h : Carries T now ts d R)
    (hmain : ∀ m, isSymmetricNeighbour T m = true → T.mainAddress m = m)
    (hlater : ∀ t' ∈ ts, KeyOrder.before (Keyed.key t') (Keyed.key t))
    (hd : isSymmetricNeighbour T d = false) {relay : NeighbourTuple F} {via : Route F}
    (hrelay : IsRelayTo T now (ts ++ [t]) d relay) (ht : relay.main = t.neighbour ∧ t.twoHop = d)
    (hvia : R.get? relay.main = some via) :
    Carries T now (ts ++ [t]) d
      (if (R.get? d).any fun route => keeps T route relay.willingness then R
        else R.insert { via with destination := d, distance := 2, path := [relay.main] }) := by
  rcases h.route with ⟨hno, hget⟩ | ⟨best, old, hbest, hold, hget⟩
  · rw [hget, Option.any_none, if_neg Bool.false_ne_true]
    exact h.insert_relay hd hrelay ht.1 hvia fun n hn => absurd hn (hno n)
  · let kept : Route F := { old with destination := d, distance := 2, path := [best.main] }
    have hkept : T.mainAddress kept.nextHop = best.main := ((neighbourRoutes_resolves
      hbest.isSymmetricNeighbour (hmain _ hbest.isSymmetricNeighbour)).1 old hold).1
    rw [hget, Option.any_some, keeps_eq rfl hbest.mem hkept]
    by_cases hwilling : relay.willingness < best.willingness
    · rw [if_pos (decide_eq_true hwilling)]
      refine ⟨h.near, .inr ⟨best, old, ⟨?_, fun n hn => ?_⟩, hold, hget⟩⟩
      · exact hbest.toIsRelayTo.mono fun t ht _ => List.mem_append_left _ ht
      · rcases hn.of_append_eq hrelay.mem ht.1 with hn | rfl
        · exact hbest.isBelow n hn
        · exact .inr (.inl hwilling)
    · rw [if_neg (Bool.eq_false_iff.mp (decide_eq_false hwilling))]
      refine h.insert_relay hd hrelay ht.1 hvia fun n hn => ?_
      have hle : n.willingness ≤ best.willingness := by
        rcases hbest.isBelow n hn with rfl | hbelow
        · exact Fin.le_refl _
        · exact hbelow.willingness_le
      rcases Fin.lt_or_eq_of_le (Fin.le_trans hle (Fin.not_lt.mp hwilling)) with hlt | heq
      · exact .inl hlt
      · exact .inr ⟨heq, ht.1 ▸ hn.before hlater ht.2⟩

/-- A tuple that announces another node leaves the route to `d` as it is. -/
theorem addTwoHop_of_ne (h : Carries T now ts d R) (ht : t.twoHop ≠ d) :
    Carries T now (ts ++ [t]) d (addTwoHop T locals R t) := by
  refine h.of_no_relay (fun n hn => hn.of_append.resolve_right fun hm => ht hm.2) (fun m hm => ?_) ?_
  · obtain heq | ⟨_, -, -, hfar, heq⟩ := addTwoHop_cases T locals R t
    · rw [heq]
    · rw [heq, Table.get?_insert, if_neg]
      rintro rfl
      exact Bool.false_ne_true (hfar.symm.trans hm)
  · obtain heq | ⟨_, -, -, -, heq⟩ := addTwoHop_cases T locals R t
    · rw [heq]
    · rw [heq, Table.get?_insert]
      exact if_neg ht

/-- One more tuple. -/
theorem addTwoHop (h : Carries T now ts d R)
    (hmain : ∀ m, isSymmetricNeighbour T m = true → T.mainAddress m = m) (hfar : d ∉ locals)
    (hd : isSymmetricNeighbour T d = false)
    (hlater : ∀ t' ∈ ts, KeyOrder.before (Keyed.key t') (Keyed.key t)) :
    Carries T now (ts ++ [t]) d (addTwoHop T locals R t) := by
  by_cases htd : t.twoHop = d
  case neg => exact h.addTwoHop_of_ne htd
  have hskip : ¬ (t.twoHop ∈ locals ∨ isSymmetricNeighbour T t.twoHop = true) := by
    rw [htd, hd]
    simp [hfar]
  have hnone (hno : ∀ n, IsRelayTo T now (ts ++ [t]) d n → n.main ≠ t.neighbour) :
      Carries T now (ts ++ [t]) d R :=
    h.of_no_relay (fun n hn => hn.of_append.resolve_right fun hm => hno n hn hm.1) (fun _ _ => rfl) rfl
  rw [RouteTable.addTwoHop, if_neg hskip]
  split
  · rename_i hrelay
    refine hnone fun n hn hm => Option.some_ne_none n ?_
    exact (relayOf?_eq_some_iff.mpr ⟨hn.mem, hm, hn.symmetric, hn.willing⟩).symm.trans hrelay
  · rename_i relay hrelay
    obtain ⟨hmem, hm, hs, hwilling⟩ := relayOf?_eq_some_iff.mp hrelay
    have hsm : isSymmetricNeighbour T relay.main = true := by
      have hget : T.neighbours.get? relay.main = some relay := Table.get?_eq_some_iff.mpr ⟨hmem, rfl⟩
      rw [isSymmetricNeighbour, hget]
      exact hs
    obtain ⟨hresolves, hrouted⟩ :
        (∀ via, (neighbourRoutes T now).get? relay.main = some via →
          T.mainAddress via.nextHop = relay.main ∧ ∃ l, l ∈ linksTo T now relay.main) ∧
        (∀ l ∈ linksTo T now relay.main, ∃ via, (neighbourRoutes T now).get? relay.main = some via) :=
      neighbourRoutes_resolves hsm (hmain _ hsm)
    split
    · rename_i hunrouted
      refine hnone fun n hn hnm => ?_
      obtain ⟨l, hl, halive, hend⟩ := hn.linked
      obtain ⟨via, hvia⟩ := hrouted l (mem_linksTo.mpr ⟨hl, halive, hend.trans (hnm.trans hm.symm)⟩)
      exact Option.some_ne_none via (hvia.symm.trans ((h.near _ hsm).symm.trans hunrouted))
    · rename_i via hvia
      obtain ⟨-, l, hl⟩ := hresolves via ((h.near _ hsm).symm.trans hvia)
      have hlinked := mem_linksTo.mp hl
      have hannounced : IsRelayTo T now (ts ++ [t]) d relay :=
        ⟨hmem, hs, hwilling, ⟨t, List.mem_append_right _ List.mem_cons_self, hm.symm, htd⟩, l, hlinked⟩
      rw [htd]
      exact h.of_relay hmain hlater hd hannounced ⟨hm, htd⟩ hvia

end Carries

/-! ## All routes -/

/-- The two-hop tuples in their order. -/
theorem addTwoHops_carries (hmain : ∀ m, isSymmetricNeighbour T m = true → T.mainAddress m = m)
    (hfar : d ∉ locals) (hd : isSymmetricNeighbour T d = false)
    (hunrouted : (neighbourRoutes T now).get? d = none) :
    Carries T now T.twoHops.toList d (addTwoHops T locals (neighbourRoutes T now)) := by
  have hsorted := T.twoHops.sorted
  unfold addTwoHops
  generalize T.twoHops.toList = ts at hsorted
  induction ts using List.reverseRecOn with
  | nil =>
    refine ⟨fun _ _ => rfl, .inl ⟨?_, hunrouted⟩⟩
    rintro n hn
    obtain ⟨t, ht, -⟩ := hn.announced
    cases ht
  | append_singleton ts t ih =>
    obtain ⟨hts, -, hlater⟩ := List.pairwise_append.mp hsorted
    rw [List.foldl_append, List.foldl_cons, List.foldl_nil]
    exact (ih hts).addTwoHop hmain hfar hd fun t' ht' => hlater t' ht' t List.mem_cons_self

theorem addLayers_keeps (T : Tables F) (locals : List (Address F)) (layers h : Nat) (R : RouteTable F) :
    Keeps R (addLayers T locals layers h R) :=
  addLayers_induction (P := Keeps R) (fun h _ t hR => hR.trans (addAdvertised_keeps locals h _ t))
    (fun _ t hR => hR.trans (addInterface_keeps locals _ t)) layers h fun _ _ hr => hr

/-- The best relay carries the route of two hops. If the main addresses of symmetric neighbours resolve
to themselves, a node that is neither local nor a neighbour, and to which no link leads, has its route
over the relay of the greatest willingness, and among those of the greatest address; the route starts as
the one to the relay does. -/
theorem compute_best (hmain : ∀ m, isSymmetricNeighbour T m = true → T.mainAddress m = m)
    (hfar : d ∉ locals) (hd : isSymmetricNeighbour T d = false)
    (hindirect : ¬ (compute T locals now).IsDirect d)
    (hrelay : ∃ n, IsRelayTo T now T.twoHops.toList d n) :
    ∃ best via, IsBestRelayTo T now T.twoHops.toList d best ∧
      (compute T locals now).get? best.main = some via ∧
      (compute T locals now).get? d = some
        { destination := d
          nextHop := via.nextHop
          iface := via.iface
          distance := 2
          path := [best.main] } := by
  have hunrouted : (neighbourRoutes T now).get? d = none :=
    Option.eq_none_iff_forall_ne_some.mpr fun route hroute => hindirect <|
      compute_induction (P := fun R => R.IsDirect d) (isDirect_of_get?_neighbourRoutes hroute)
        fun _ _ h => h.isDirect
  have hcarries : Carries T now T.twoHops.toList d (addTwoHops T locals (neighbourRoutes T now)) :=
    addTwoHops_carries hmain hfar hd hunrouted
  have hkeeps : Keeps (addTwoHops T locals (neighbourRoutes T now)) (compute T locals now) :=
    addLayers_keeps T locals _ _ _
  rcases hcarries.route with ⟨hno, -⟩ | ⟨best, via, hbest, hvia, hget⟩
  · obtain ⟨n, hn⟩ := hrelay
    exact absurd hn (hno n)
  · exact ⟨best, via, hbest,
      hkeeps _ _ ((hcarries.near _ hbest.isSymmetricNeighbour).trans hvia), hkeeps _ _ hget⟩

/-- The small mesh, in which 10.0.0.2 is more willing than 10.0.0.3. -/
def eagerMesh : Tables .ipv4 :=
  { mesh with neighbours := .ofList [⟨.ofNat 0x0a000002, .always, true⟩, ⟨.ofNat 0x0a000003, .standard, true⟩] }

theorem compute_best_eagerMesh :
    let R := compute eagerMesh [.ofNat 0x0a000001] 0
    (∀ m, isSymmetricNeighbour eagerMesh m = true → eagerMesh.mainAddress m = m) ∧
      isSymmetricNeighbour eagerMesh (.ofNat 0x0a000004) = false ∧ ¬ R.IsDirect (.ofNat 0x0a000004) ∧
      ∃ best via, IsBestRelayTo eagerMesh 0 eagerMesh.twoHops.toList (.ofNat 0x0a000004) best ∧
        best.main = .ofNat 0x0a000002 ∧ R.get? best.main = some via ∧
        R.get? (.ofNat 0x0a000004) = some ⟨.ofNat 0x0a000004, via.nextHop, via.iface, 2, [best.main]⟩ := by
  have hmain (m : Address .ipv4) (hm : isSymmetricNeighbour eagerMesh m = true) :
      eagerMesh.mainAddress m = m := by
    have hall : ∀ m ∈ (eagerMesh.neighbours.toList.filter (·.symmetric)).map (·.main),
        eagerMesh.mainAddress m = m := by decide +kernel
    exact hall m (isSymmetricNeighbour_iff.mp hm)
  have hroute : (compute eagerMesh [.ofNat 0x0a000001] 0).get? (.ofNat 0x0a000004) =
      some ⟨.ofNat 0x0a000004, .ofNat 0x0a000002, .ofNat 0x0a000001, 2, [.ofNat 0x0a000002]⟩ := by
    decide +kernel
  have hindirect : ¬ (compute eagerMesh [.ofNat 0x0a000001] 0).IsDirect (.ofNat 0x0a000004) := by
    rintro ⟨route, hget, hdist⟩
    obtain rfl := Option.some.inj (hroute.symm.trans hget)
    cases hdist
  have hrelay : IsRelayTo eagerMesh 0 eagerMesh.twoHops.toList (.ofNat 0x0a000004)
      ⟨.ofNat 0x0a000003, .standard, true⟩ := by
    refine ⟨by decide +kernel, rfl, by decide, ?_, ?_⟩
    · exact ⟨⟨.ofNat 0x0a000003, .ofNat 0x0a000004, 5⟩, by decide +kernel, rfl, rfl⟩
    · exact ⟨⟨.ofNat 0x0a000001, .ofNat 0x0a000003, 5, 5, 5, none⟩, by decide +kernel, by decide,
        by decide +kernel⟩
  obtain ⟨best, via, hbest, hvia, hget⟩ :=
    compute_best hmain (by decide +kernel) (by decide +kernel) hindirect ⟨_, hrelay⟩
  have hpath := congrArg Route.path (Option.some.inj (hroute.symm.trans hget))
  exact ⟨hmain, by decide +kernel, hindirect, best, via, hbest, (List.cons.inj hpath).1.symm, hvia, hget⟩

end Manet.RouteTable
