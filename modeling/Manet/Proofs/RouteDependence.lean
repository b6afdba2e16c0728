import Manet.Proofs.TableContents
import Manet.RouteTable.Computation

/-!
# What routes depend on

Links enter the computation of routes only as the live links to symmetric neighbours
(`compute_congr`). So a link to a node that is no symmetric neighbour may change at will
(`compute_insert_link`).
-/

namespace Manet.RouteTable

variable {F : Family} {T : Tables F} {links : Table (LinkTuple F)}

theorem addLayers_links (locals : List (Address F)) (layers h : Nat) (R : RouteTable F) :
    addLayers { T with links } locals layers h R = addLayers T locals layers h R := by
  induction layers generalizing h R with
  | zero => rfl
  | succ layers ih =>
    have hl : addLayer { T with links } locals h R = addLayer T locals h R := rfl
    rw [addLayers, addLayers, hl, ih]

theorem foldl_addNeighbour_links {now : Time} {mains : List (Address F)}
    (h : ∀ main ∈ mains, linksTo { T with links } now main = linksTo T now main)
    (R : RouteTable F) :
    mains.foldl (addNeighbour { T with links } now) R = mains.foldl (addNeighbour T now) R := by
  induction mains generalizing R with
  | nil => rfl
  | cons main mains ih =>
    have hm : addNeighbour { T with links } now R main = addNeighbour T now R main := by
      unfold addNeighbour
      rw [h main List.mem_cons_self]
    rw [List.foldl_cons, List.foldl_cons, hm, ih fun m hm => h m (List.mem_cons_of_mem _ hm)]

theorem compute_congr {now : Time} (locals : List (Address F))
    (h : ∀ n ∈ T.neighbours, n.symmetric = true →
      linksTo { T with links } now n.main = linksTo T now n.main) :
    compute { T with links } locals now = compute T locals now := by
  have hn : neighbourRoutes { T with links } now = neighbourRoutes T now := by
    refine foldl_addNeighbour_links (fun main hm => ?_) ∅
    obtain ⟨n, hn, rfl⟩ := List.mem_map.mp hm
    obtain ⟨hn, hs⟩ := List.mem_filter.mp hn
    exact h n hn hs
  unfold compute
  rw [addLayers_links, hn]
  rfl

theorem linksTo_insert_link {now : Time} {main : Address F} {new : LinkTuple F}
    (hm : T.mainAddress new.neighbour ≠ main) :
    linksTo { T with links := T.links.insert new } now main = linksTo T now main := by
  let p : LinkTuple F → Bool := fun t => t.isAlive now ∧ T.mainAddress t.neighbour = main
  have hp {t : LinkTuple F} (ht : Keyed.key t = Keyed.key new) : p t = false := by
    have htn : t.neighbour = new.neighbour := (Prod.mk.inj ht).2
    simp [p, htn, hm]
  have he : (T.links.insert new).filter p = T.links.filter p := by
    refine Table.eq_of_mem_iff fun t => ?_
    rw [Table.mem_filter, Table.mem_filter, Table.mem_insert]
    constructor
    · rintro ⟨rfl | ⟨ht, -⟩, hpt⟩
      · exact absurd ((hp rfl).symm.trans hpt) Bool.false_ne_true
      · exact ⟨ht, hpt⟩
    · rintro ⟨ht, hpt⟩
      exact ⟨.inr ⟨ht, fun hk => absurd ((hp hk).symm.trans hpt) Bool.false_ne_true⟩, hpt⟩
  exact congrArg Table.toList he

theorem compute_insert_link {now : Time} (locals : List (Address F)) {new : LinkTuple F}
    (hs : isSymmetricNeighbour T (T.mainAddress new.neighbour) = false) :
    compute { T with links := T.links.insert new } locals now = compute T locals now := by
  refine compute_congr locals fun n hn hsym => linksTo_insert_link fun hm => ?_
  have hg : T.neighbours.get? n.main = some n := Table.get?_eq_some_iff.mpr ⟨hn, rfl⟩
  rw [hm, isSymmetricNeighbour, hg] at hs
  exact absurd (hs.symm.trans hsym) Bool.false_ne_true

end Manet.RouteTable
