import Mathlib.Logic.Basic
import Manet.Proofs.LinkRoutes
import Manet.Proofs.RepeatedHello

/-!
# Next hops that failed

The link layer reports that the next hop of a route can not be reached. The router takes all links that
end there for lost, and its routes change only if this costs it the neighbour behind them: a link that
ends at another interface of the neighbour, and counts, keeps all routes as they are, also those over
the next hop that failed, since the lost links stay alive (`Reachable.failed_hop_stays_iff`). What the
links of a report cost is settled one by one (`foldl_markLost_losses_ne_iff`).
-/

namespace Manet.Router

variable {F : Family} {now : Time} {r r' : Router F} {a : Address F}

/-! ## Next hops and links -/

/-- All next hops are ends of stored links. -/
def HopsLinked (r : Router F) : Prop :=
  ∀ route ∈ r.routes, ∃ l ∈ r.tables.links, l.neighbour = route.nextHop

theorem RoutesCurrent.hopsLinked (h : r.RoutesCurrent now) : r.HopsLinked := by
  intro route hroute
  rw [h] at hroute
  obtain ⟨l, hl, -, -, hend⟩ := RouteTable.compute_startsAtLinks _ _ _ route hroute
  exact ⟨l, hl, hend⟩

theorem HopsLinked.of_kept (h : r.HopsLinked) (hroutes : r'.routes = r.routes)
    (hkept : ∀ l ∈ r.tables.links, ∃ l' ∈ r'.tables.links, l'.neighbour = l.neighbour) :
    r'.HopsLinked := by
  intro route hroute
  rw [hroutes] at hroute
  obtain ⟨l, hl, hend⟩ := h route hroute
  obtain ⟨l', hl', he⟩ := hkept l hl
  exact ⟨l', hl', he.trans hend⟩

theorem HopsLinked.of_does {ps : List Part} (hd : Does ps now r r') (hp : .dropped .link ∉ ps)
    (h : r.HopsLinked) : r'.HopsLinked := by
  refine hd.keep (fun r d hd hf hr => ?_) h
  by_cases hroutes : d.part = .routes
  · cases d with
    | routes => exact (updateRoutes_routesCurrent r now).hopsLinked
    | tell c => exact hr
    | insert t =>
      rw [Deed.part] at hroutes
      split at hroutes <;> cases hroutes
    | _ => cases hroutes
  · have hone : Does [d.part] now r (r.perform now d) := .step d List.mem_cons_self hf (.nothing _)
    refine hr.of_kept (hone.routes_eq ?_) (hone.kept ?_)
    · exact fun hm => hroutes (List.mem_singleton.mp hm).symm
    · exact fun hm => hp (List.mem_singleton.mp hm ▸ hd)

/-- Links go with their timers, and then the routes are computed anew. -/
theorem expire_hopsLinked (h : r.HopsLinked) (key : TupleKey F) (generation : Nat) :
    (r.expire key generation now).HopsLinked := by
  have hd : Does upkeep now { r with toStore := (r.toStore.expire key generation now).2 }
      (r.expire key generation now) := expire_does r key generation
  have ht := r.toStore.tables_expire key generation now
  cases hx : (r.toStore.expire key generation now).1 with
  | stale | pending =>
    rw [hx] at ht
    have hlinks : (r.toStore.expire key generation now).2.tables.links = r.tables.links := congrArg _ ht
    exact .of_does hd (by decide) (h.of_kept rfl fun l hl => ⟨l, hlinks ▸ hl, rfl⟩)
  | expired t =>
    rw [hx] at ht
    obtain ⟨hget, hdrop⟩ := ht
    obtain rfl := Tables.key_of_get? hget
    cases t with
    | link t =>
      have he : r.expire (TimedTuple.link t).key generation now =
          linkRemoved { r with toStore := (r.toStore.expire (TimedTuple.link t).key generation now).2 }
            t now := by
        unfold expire
        rcases hs : r.toStore.expire (TimedTuple.link t).key generation now with ⟨expiry, s⟩
        rw [hs] at hx
        obtain rfl : expiry = .expired (.link t) := hx
        rfl
      rw [he]
      exact (linkRemoved_upToDate _ t now).routes.hopsLinked
    | _ =>
      refine .of_does hd (by decide) (h.of_kept rfl fun l hl => ⟨l, ?_, rfl⟩)
      show l ∈ (r.toStore.expire _ generation now).2.tables.links
      rw [hdrop]
      exact hl

theorem apply_hopsLinked (h : r.HopsLinked) (now : Time) (op : Operation F) :
    (r.apply now op).HopsLinked := by
  have hs := r.apply_step now op
  generalize hr' : r.apply now op = r' at hs
  cases hs with
  | idle => exact h
  | stop => exact fun route hr => absurd hr (Table.not_mem_empty route)
  | expiry key generation hr =>
    rw [apply, handleTimer, if_pos hr] at hr'
    exact hr' ▸ expire_hopsLinked h key generation
  | start _ _ _ hd | refresh _ hd | packet _ _ _ _ hd | linkFailed _ _ hd | hello _ _ _ hd
  | tc _ _ _ hd | mid _ _ _ hd | flush _ hd =>
    have h' := HopsLinked.of_does hd (by decide) h
    exact h'

theorem Reachable.hopsLinked {t : Time} (h : r.Reachable t) : r.HopsLinked := by
  induction h with
  | create => exact fun route hr => absurd hr (Table.not_mem_empty route)
  | apply op _ _ ih => exact apply_hopsLinked ih _ op

/-! ## What a report leaves of a neighbour -/

/-- A link makes the node behind `a` a symmetric neighbour, even if those with the given keys are taken
for lost, for as long as a report at `now` would have it. -/
def IsReachedWithout (r : Router F) (now : Time) (a : Address F) (keys : List (Address F × Address F)) :
    Prop :=
  ∃ l ∈ r.tables.links, r.mainAddress l.neighbour = r.mainAddress a ∧ r.linkCounts l now = true ∧
    (Keyed.key l ∈ keys → r.params.neighbourHoldTime = 0)

variable {keys : List (Address F × Address F)}

theorem IsReachedWithout.mono {keys' : List (Address F × Address F)}
    (h : r.IsReachedWithout now a keys) (hsub : ∀ k ∈ keys', k ∈ keys) :
    r.IsReachedWithout now a keys' := by
  obtain ⟨l, hl, hend, hcounts, hhold⟩ := h
  exact ⟨l, hl, hend, hcounts, fun hk => hhold (hsub _ hk)⟩

theorem isReached_iff : r.isReached (r.mainAddress a) now = true ↔ r.IsReachedWithout now a [] := by
  rw [isReached, List.any_eq_true]
  constructor
  · rintro ⟨l, hl, hcounts⟩
    obtain ⟨hend, hcounts⟩ := of_decide_eq_true hcounts
    exact ⟨l, hl, hend, hcounts, nofun⟩
  · rintro ⟨l, hl, hend, hcounts, -⟩
    exact ⟨l, hl, decide_eq_true ⟨hend, hcounts⟩⟩

theorem isReachedWithout_congr (hl : r'.tables.links = r.tables.links)
    (ha : r'.tables.associations = r.tables.associations) (hp : r'.params = r.params) :
    r'.IsReachedWithout now a keys ↔ r.IsReachedWithout now a keys := by
  unfold IsReachedWithout linkCounts
  simp only [hl, hp, mainAddress_congr ha]

/-- A link that is taken for lost counts iff it is symmetric and the loss ends at once. -/
theorem linkCounts_lostUntil (hf : r.params.useLinkLayerFeedback = true) (link : LinkTuple F) :
    r.linkCounts (lostUntil link (now + r.params.neighbourHoldTime)) now = true ↔
      link.isSymmetric now = true ∧ r.params.neighbourHoldTime = 0 := by
  have hlost : (lostUntil link (now + r.params.neighbourHoldTime)).isLost now = true ↔
      r.params.neighbourHoldTime ≠ 0 := by
    rw [LinkTuple.isLost, lostUntil, Option.any_some, decide_eq_true_iff]
    exact ⟨fun h he => Nat.lt_irrefl now (by rwa [he] at h),
      fun h => Nat.lt_add_of_pos_right (Nat.pos_of_ne_zero h)⟩
  rw [linkCounts, decide_eq_true_iff, Bool.not_eq_true', decide_eq_false_iff_not, hlost]
  simp only [hf, true_and, ne_eq, Classical.not_not]
  exact Iff.rfl

/-- To take a link for lost is to do without it. -/
theorem isReachedWithout_mark (hf : r.params.useLinkLayerFeedback = true) (hb : r.LossesEnd now)
    {link : LinkTuple F} (hlink : link ∈ r.tables.links) :
    (r.perform now (.mark (lostUntil link (now + r.params.neighbourHoldTime)))).IsReachedWithout now a
        keys ↔ r.IsReachedWithout now a (Keyed.key link :: keys) := by
  let new := lostUntil link (now + r.params.neighbourHoldTime)
  have hmem {l : LinkTuple F} : l ∈ (r.perform now (.mark new)).tables.links ↔
      l = new ∨ l ∈ r.tables.links ∧ Keyed.key l ≠ Keyed.key link := by
    rw [perform_tables]
    exact Table.mem_insert
  unfold IsReachedWithout
  simp only [mainAddress_mark]
  constructor
  · rintro ⟨l, hl, hend, hcounts, hhold⟩
    rcases hmem.mp hl with rfl | ⟨hl, hk⟩
    · obtain ⟨hsym, hzero⟩ := (linkCounts_lostUntil hf link).mp hcounts
      refine ⟨link, hlink, hend, decide_eq_true ⟨hsym, ?_⟩, fun _ => hzero⟩
      -- a loss that was reported before is over, too
      rw [Bool.not_eq_true', decide_eq_false_iff_not]
      rintro ⟨-, hlost⟩
      obtain ⟨e, he, hlt⟩ := (Option.any_eq_true _ _).mp hlost
      have hle := hb link hlink e he
      rw [hzero] at hle
      exact Nat.not_lt.mpr hle (of_decide_eq_true hlt)
    · refine ⟨l, hl, hend, hcounts, fun hm => ?_⟩
      exact hhold ((List.mem_cons.mp hm).resolve_left hk)
  · rintro ⟨l, hl, hend, hcounts, hhold⟩
    by_cases hk : Keyed.key l = Keyed.key link
    · obtain rfl := Table.key_inj_of_mem r.tables.links.sorted hl hlink hk
      have hzero := hhold List.mem_cons_self
      have hsym := (of_decide_eq_true hcounts).1
      exact ⟨new, hmem.mpr (.inl rfl), hend, (linkCounts_lostUntil hf l).mpr ⟨hsym, hzero⟩, fun _ => hzero⟩
    · exact ⟨l, hmem.mpr (.inr ⟨hl, hk⟩), hend, hcounts, fun hm => hhold (List.mem_cons_of_mem _ hm)⟩

/-- A check stores the neighbour as the links make it. -/
theorem hasSymmetricNeighbour_checkNeighbour (r : Router F) (link : LinkTuple F) (now : Time) :
    (r.checkNeighbour link none now).hasSymmetricNeighbour (r.mainAddress link.neighbour) =
      r.isReached (r.mainAddress link.neighbour) now := by
  obtain ⟨-, hn, -⟩ := r.checkNeighbour_links link none now
  obtain ⟨n, hget, hs⟩ := r.exists_get?_storeNeighbour link none
    (r.isReached (r.mainAddress link.neighbour) now)
  rw [hasSymmetricNeighbour, hn, hget]
  exact hs

/-- Only a neighbour that was stored as symmetric is lost. -/
theorem hasSymmetricNeighbour_of_lost {link : LinkTuple F} {w : Option Willingness}
    (h : (r.updateNeighbour link w now).1 = true) :
    r.hasSymmetricNeighbour (r.mainAddress link.neighbour) = true := by
  unfold updateNeighbour at h
  dsimp only at h
  cases hb : r.hasSymmetricNeighbour (r.mainAddress link.neighbour) with
  | true => rfl
  | false =>
    rw [hb] at h
    split at h <;> cases h

/-- A report has taken the link with the given key for lost and told no loss: the neighbour behind `a` is
stored as the other links make it. -/
structure Spares (now : Time) (a : Address F) (key : Address F × Address F) (r r' : Router F) : Prop where
  losses : r'.journal.losses = r.journal.losses
  params : r'.params = r.params
  lossesEnd : r'.LossesEnd now
  stored (k : Address F × Address F) :
    (r.tables.links.get? k).isSome = true → (r'.tables.links.get? k).isSome = true
  symmetric : r'.hasSymmetricNeighbour (r'.mainAddress a) = true ↔ r.IsReachedWithout now a [key]
  reached (keys : List (Address F × Address F)) :
    r'.IsReachedWithout now a keys ↔ r.IsReachedWithout now a (key :: keys)

/-- A check that tells no loss of the link that was taken for lost spares the neighbour. -/
theorem Spares.of_check (hf : r.params.useLinkLayerFeedback = true) (hb : r.LossesEnd now)
    {link : LinkTuple F} (hlink : link ∈ r.tables.links) :
    let new := lostUntil link (now + r.params.neighbourHoldTime)
    let marked := r.perform now (.mark new)
    Deed.Fits now r (.mark new) → Undisturbed marked (marked.checkNeighbour new none now) →
      Spares now link.neighbour (Keyed.key link) r (marked.checkNeighbour new none now) := by
  intro new marked hfit hsame
  obtain ⟨hl, -, ha⟩ := marked.checkNeighbour_links new none now
  have hd : Does upkeep now marked (marked.checkNeighbour new none now) := checkNeighbour_does _ _ _
  have hmarked : Does [.stored .link] now r marked :=
    (Does.nothing r).deed (.mark new) (.stored .link) List.mem_cons_self rfl hfit
  exact {
    losses := hsame.losses.trans (hmarked.losses_eq (by decide))
    params := hd.sameNode.params
    lossesEnd := (hb.perform hfit).of_does hd
    stored := fun k hk => by
      have hlinks : marked.tables.links = r.tables.links.insert new := by
        rw [perform_tables]
        rfl
      rw [hl, hlinks, Table.get?_insert]
      split
      · rfl
      · exact hk
    symmetric := by
      have hchecked : (marked.checkNeighbour new none now).hasSymmetricNeighbour
          (marked.mainAddress link.neighbour) = marked.isReached (marked.mainAddress link.neighbour) now :=
        hasSymmetricNeighbour_checkNeighbour marked new now
      rw [mainAddress_congr ha, hchecked, isReached_iff, isReachedWithout_mark hf hb hlink]
    reached := fun keys =>
      (isReachedWithout_congr hl ha hd.sameNode.params).trans (isReachedWithout_mark hf hb hlink) }

/-- A link that is taken for lost costs the neighbour iff it is stored as symmetric and no other link
reaches it. -/
theorem markLost_costs_or_spares (hf : r.params.useLinkLayerFeedback = true) (hb : r.LossesEnd now)
    {key : Address F × Address F} (hkey : key.2 = a) (hstored : (r.tables.links.get? key).isSome = true) :
    let r' := markLost (now + r.params.neighbourHoldTime) now r key
    let costs := r.hasSymmetricNeighbour (r.mainAddress a) = true ∧ ¬ r.IsReachedWithout now a [key]
    costs ∧ HasLost now a r' ∧ r'.journal.losses ≠ r.journal.losses ∨ ¬ costs ∧ Spares now a key r r' := by
  obtain ⟨link, hget⟩ := Option.isSome_iff_exists.mp hstored
  obtain ⟨hmem, hk⟩ := Table.get?_eq_some_iff.mp hget
  obtain ⟨hfit, he⟩ := markLost_eq hget now
  let new := lostUntil link (now + r.params.neighbourHoldTime)
  let marked := r.perform now (.mark new)
  obtain rfl : link.neighbour = a := (congrArg Prod.snd hk).trans hkey
  subst hk
  have hreached : marked.isReached (marked.mainAddress link.neighbour) now = true ↔
      r.IsReachedWithout now link.neighbour [Keyed.key link] :=
    isReached_iff.trans (isReachedWithout_mark hf hb hmem)
  have hsym : marked.hasSymmetricNeighbour (marked.mainAddress link.neighbour) =
      r.hasSymmetricNeighbour (r.mainAddress link.neighbour) := by
    rw [mainAddress_mark]
    exact hasSymmetricNeighbour_congr (by rw [perform_tables]; rfl) _
  dsimp only
  rw [he]
  rcases checkNeighbour_cases marked new none now with ⟨hlost, -, main, hlosses⟩ | ⟨hlost, hsame⟩
  · refine .inl ⟨⟨?_, fun hr => ?_⟩, .of_check hf (hb.perform hfit) hlost, fun heq => ?_⟩
    · exact hsym.symm.trans (hasSymmetricNeighbour_of_lost hlost)
    · exact Bool.false_ne_true ((updateNeighbour_of_lost hlost).1.symm.trans (hreached.mpr hr))
    · have hmarked : Does [.stored .link] now r marked :=
        (Does.nothing r).deed (.mark new) (.stored .link) List.mem_cons_self rfl hfit
      rw [hlosses, hmarked.losses_eq (by decide)] at heq
      exact List.cons_ne_nil main [] (List.append_right_eq_self.mp heq)
  · refine .inr ⟨fun ⟨hbefore, hnot⟩ => ?_, Spares.of_check hf hb hmem hfit hsame⟩
    have hunreached : marked.isReached (marked.mainAddress link.neighbour) now = false :=
      Bool.eq_false_iff.mpr fun h => hnot (hreached.mp h)
    exact Bool.false_ne_true (hlost.symm.trans (updateNeighbour_loses (hsym.trans hbefore) hunreached))

/-- The links that a report takes for lost cost the neighbour iff no other link reaches it after the last
of them, and it was symmetric before or at least after the first of them. -/
theorem foldl_markLost_losses_ne_iff {hold : Time} {keys : List (Address F × Address F)}
    (hkeys : ∀ key ∈ keys, key.2 = a) (hstored : ∀ key ∈ keys, (r.tables.links.get? key).isSome = true)
    (hf : r.params.useLinkLayerFeedback = true) (hb : r.LossesEnd now)
    (hh : hold = now + r.params.neighbourHoldTime) :
    (keys.foldl (markLost hold now) r).journal.losses ≠ r.journal.losses ↔
      ∃ first, keys.head? = some first ∧ ¬ r.IsReachedWithout now a keys ∧
        (r.hasSymmetricNeighbour (r.mainAddress a) = true ∨ r.IsReachedWithout now a [first]) := by
  induction keys generalizing r with
  | nil => simp
  | cons key keys ih =>
    subst hh
    have hkeys' : ∀ k ∈ keys, k.2 = a := fun k hk => hkeys k (List.mem_cons_of_mem _ hk)
    have hmono (h : r.IsReachedWithout now a (key :: keys)) : r.IsReachedWithout now a [key] :=
      h.mono fun k hk => List.mem_singleton.mp hk ▸ List.mem_cons_self
    simp only [List.foldl_cons, List.head?_cons, Option.some.injEq, exists_eq_left']
    rcases markLost_costs_or_spares hf hb (hkeys key List.mem_cons_self) (hstored key List.mem_cons_self) with
      ⟨⟨hsym, hnot⟩, hlost, hlosses⟩ | ⟨hspared, h⟩
    · have hd : Does (.stored .link :: upkeep) now r
          (markLost (now + r.params.neighbourHoldTime) now r key) := markLost_does r key
      rw [(HasLost.foldl_markLost hkeys' hlost (by rw [hd.sameNode.params])).2]
      exact ⟨fun _ => ⟨fun hr => hnot (hmono hr), .inl hsym⟩, fun _ => hlosses⟩
    · have hrest := ih (r := markLost (now + r.params.neighbourHoldTime) now r key) hkeys'
        (fun k hk => h.stored k (hstored k (List.mem_cons_of_mem _ hk)))
        (by rw [h.params]; exact hf) h.lossesEnd (by rw [h.params])
      rw [h.losses] at hrest
      rw [hrest]
      simp only [h.reached, h.symmetric]
      constructor
      · rintro ⟨first, -, hno, hr⟩
        exact ⟨hno, .inr (hr.elim id fun hr => hr.mono fun k hk => List.mem_singleton.mp hk ▸ List.mem_cons_self)⟩
      · rintro ⟨hno, hr⟩
        have hfirst : r.IsReachedWithout now a [key] :=
          hr.elim (fun hs => Classical.byContradiction fun hnot => hspared ⟨hs, hnot⟩) id
        cases keys with
        | nil => exact absurd hfirst hno
        | cons first keys => exact ⟨first, rfl, hno, .inl hfirst⟩

/-! ## Reports -/

/-- A link that ends elsewhere than `a` makes the node behind `a` a symmetric neighbour, or one that ends
there while losses end at once. -/
def IsReachedBeside (r : Router F) (now : Time) (a : Address F) : Prop :=
  ∃ l ∈ r.tables.links, r.mainAddress l.neighbour = r.mainAddress a ∧ r.linkCounts l now = true ∧
    (l.neighbour = a → r.params.neighbourHoldTime = 0)

/-- Only the first link that ends at `a` may make the node behind `a` a symmetric neighbour. -/
def IsReachedByFirst (r : Router F) (now : Time) (a : Address F) : Prop :=
  ∀ l ∈ r.tables.links, r.mainAddress l.neighbour = r.mainAddress a → r.linkCounts l now = true →
    r.tables.links.toList.find? (fun t => t.neighbour = a) = some l

instance (r : Router F) (now : Time) (a : Address F) : Decidable (r.IsReachedBeside now a) :=
  inferInstanceAs (Decidable (∃ l ∈ r.tables.links.toList, _ ∧ _ ∧ (_ → _)))

instance (r : Router F) (now : Time) (a : Address F) : Decidable (r.IsReachedByFirst now a) :=
  inferInstanceAs (Decidable (∀ l ∈ r.tables.links.toList, _ → _ → _))

/-- The keys of the links that end at `a`. -/
def keysTo (r : Router F) (a : Address F) : List (Address F × Address F) :=
  (r.tables.links.toList.filter fun t => t.neighbour = a).map Keyed.key

theorem key_mem_keysTo {l : LinkTuple F} (hl : l ∈ r.tables.links) :
    Keyed.key l ∈ r.keysTo a ↔ l.neighbour = a := by
  constructor
  · exact snd_of_mem_linkKeys
  · exact fun h => List.mem_map_of_mem (List.mem_filter.mpr ⟨hl, decide_eq_true h⟩)

theorem isReachedWithout_keysTo :
    r.IsReachedWithout now a (r.keysTo a) ↔ r.IsReachedBeside now a := by
  constructor
  · rintro ⟨l, hl, hend, hcounts, hhold⟩
    exact ⟨l, hl, hend, hcounts, fun h => hhold ((key_mem_keysTo hl).mpr h)⟩
  · rintro ⟨l, hl, hend, hcounts, hhold⟩
    exact ⟨l, hl, hend, hcounts, fun h => hhold ((key_mem_keysTo hl).mp h)⟩

/-- A route that starts where the neighbour was lost is gone. -/
theorem HasLost.nextHop_ne (h : HasLost now a r) : ∀ route ∈ r.routes, route.nextHop ≠ a := by
  rintro route hroute rfl
  rw [h.routes] at hroute
  obtain ⟨l, -, -, hs, hend⟩ := RouteTable.compute_startsAtLinks _ _ _ route hroute
  rw [hend] at hs
  exact Bool.false_ne_true (h.hasSymmetricNeighbour_eq_false.symm.trans hs)

theorem head?_keysTo (r : Router F) (a : Address F) :
    (r.keysTo a).head? = (r.tables.links.toList.find? fun t => t.neighbour = a).map Keyed.key := by
  rw [keysTo, List.head?_map, List.head?_filter]

/-- Where no link counts beside those that end at `a`, only the first of them may count iff none does
without it. -/
theorem isReachedByFirst_iff {first : LinkTuple F} (hno : ¬ r.IsReachedBeside now a)
    (hfind : (r.tables.links.toList.find? fun t => t.neighbour = a) = some first) :
    r.IsReachedByFirst now a ↔ ¬ r.IsReachedWithout now a [Keyed.key first] := by
  have hmem : first ∈ r.tables.links := List.mem_of_find?_eq_some hfind
  have hend : first.neighbour = a := by simpa using List.find?_some hfind
  constructor
  · rintro hby ⟨l, hl, hmain, hcounts, hhold⟩
    obtain rfl := Option.some.inj (hfind.symm.trans (hby l hl hmain hcounts))
    exact hno ⟨first, hl, hmain, hcounts, fun _ => hhold List.mem_cons_self⟩
  · intro hnot l hl hmain hcounts
    have hk : Keyed.key l = Keyed.key first := Classical.byContradiction fun hk =>
      hnot ⟨l, hl, hmain, hcounts, fun hm => absurd (List.mem_singleton.mp hm) hk⟩
    rw [hfind, Table.key_inj_of_mem r.tables.links.sorted hl hmem hk]

/-- The links of a report cost no neighbour iff it is still reached beside all of them, or it was not
stored as symmetric and only the first of them could reach it. -/
theorem foldl_keysTo_losses_eq_iff (hf : r.params.useLinkLayerFeedback = true) (hb : r.LossesEnd now)
    (hlinked : ∃ l ∈ r.tables.links, l.neighbour = a) :
    ((r.keysTo a).foldl (markLost (now + r.params.neighbourHoldTime) now) r).journal.losses =
        r.journal.losses ↔
      r.IsReachedBeside now a ∨
        r.hasSymmetricNeighbour (r.mainAddress a) = false ∧ r.IsReachedByFirst now a := by
  have hsnd : ∀ key ∈ r.keysTo a, key.2 = a := fun _ => snd_of_mem_linkKeys
  have hstored : ∀ key ∈ r.keysTo a, (r.tables.links.get? key).isSome = true := by
    intro key hkey
    obtain ⟨l, hl, rfl⟩ := List.mem_map.mp hkey
    rw [Table.get?_eq_some_iff.mpr ⟨(List.mem_filter.mp hl).1, rfl⟩]
    rfl
  obtain ⟨first, hfind⟩ : ∃ first, (r.tables.links.toList.find? fun t => t.neighbour = a) = some first := by
    obtain ⟨l, hl, hend⟩ := hlinked
    exact Option.isSome_iff_exists.mp (List.find?_isSome.mpr ⟨l, hl, decide_eq_true hend⟩)
  have hcosts : ((r.keysTo a).foldl (markLost (now + r.params.neighbourHoldTime) now) r).journal.losses ≠
      r.journal.losses ↔ ¬ r.IsReachedBeside now a ∧
        (r.hasSymmetricNeighbour (r.mainAddress a) = true ∨ r.IsReachedWithout now a [Keyed.key first]) := by
    rw [foldl_markLost_losses_ne_iff hsnd hstored hf hb rfl, head?_keysTo, hfind, isReachedWithout_keysTo]
    simp only [Option.map_some, Option.some.injEq, exists_eq_left']
  rw [← not_iff_not, ← ne_eq, hcosts, not_or, not_and_or, Bool.not_eq_false]
  refine and_congr_right fun hno => or_congr_right ?_
  rw [isReachedByFirst_iff hno hfind, Classical.not_not]

/-- A report keeps the next hop that failed in use iff the neighbour behind it is still reached by a link
that ends elsewhere, or it was not stored as symmetric and only the first of its links could reach it.
Then all routes stay as they are. -/
theorem Reachable.failed_hop_stays_iff {t : Time} (h : r.Reachable t) (ht : t ≤ now)
    (hr : r.running = true) (hf : r.params.useLinkLayerFeedback = true) {destination : Address F}
    {route : Route F} (hroute : r.routeTo? destination = some route) :
    let r' := r.linkFailed destination now
    ((∃ other ∈ r'.routes, other.nextHop = route.nextHop) ↔
      r.IsReachedBeside now route.nextHop ∨
        r.hasSymmetricNeighbour (r.mainAddress route.nextHop) = false ∧
          r.IsReachedByFirst now route.nextHop) ∧
    ((∃ other ∈ r'.routes, other.nextHop = route.nextHop) → r'.routes = r.routes) := by
  have hb : r.LossesEnd now := h.lossesEnd.mono ht
  have hmem : route ∈ r.routes := (Table.get?_eq_some_iff.mp hroute).1
  let noted := r.note (.unreachable route.nextHop)
  have he : r.linkFailed destination now =
      (noted.keysTo route.nextHop).foldl (markLost (now + noted.params.neighbourHoldTime) now) noted := by
    rw [linkFailed, if_pos ⟨hr, hf⟩, hroute]
    rfl
  have hlosses := foldl_keysTo_losses_eq_iff (r := noted) (a := route.nextHop) hf hb (h.hopsLinked route hmem)
  have hsnd : ∀ key ∈ noted.keysTo route.nextHop, key.2 = route.nextHop := fun _ => snd_of_mem_linkKeys
  dsimp only
  rw [he]
  rcases foldl_markLost_cases (r := noted) hsnd hf hb rfl with ⟨hlost, main, hgrown⟩ | hsame
  · have hunused : ¬ ∃ other ∈ ((noted.keysTo route.nextHop).foldl
        (markLost (now + noted.params.neighbourHoldTime) now) noted).routes, other.nextHop = route.nextHop :=
      fun ⟨other, hother, hhop⟩ => hlost.nextHop_ne other hother hhop
    have hne : ¬ ((noted.keysTo route.nextHop).foldl
        (markLost (now + noted.params.neighbourHoldTime) now) noted).journal.losses = noted.journal.losses :=
      fun heq => List.cons_ne_nil main [] (List.append_right_eq_self.mp (hgrown.symm.trans heq))
    exact ⟨⟨fun hused => absurd hused hunused, fun hkept => absurd (hlosses.mpr hkept) hne⟩,
      fun hused => absurd hused hunused⟩
  · exact ⟨⟨fun _ => hlosses.mp hsame.losses, fun _ => ⟨route, by rw [hsame.routes]; exact hmem, rfl⟩⟩,
      fun _ => hsame.routes⟩

/-! A node that listens to its link layer, and hears 10.0.0.9 on two of its interfaces. The failure of the
one that is the next hop leaves the route as it is. With that link alone, the route would be gone. -/

/-- The node after a HELLO of 10.0.0.9. -/
def onceLinked : Router .ipv4 :=
  ((create sampleAddress { useLinkLayerFeedback := true } (.cycle #[])).apply 0 sampleStart).apply 0
    (.packet (.number 0) (.ofNat 0x0a000009) secondaryHello)

/-- The node after a MID that declares 10.0.0.2, and a HELLO from there. -/
def twiceLinked : Router .ipv4 :=
  (onceLinked.apply 0 (.packet (.number 0) (.ofNat 0x0a000009) secondaryMid)).apply 0
    (.packet (.number 0) (.ofNat 0x0a000002) secondaryHello)

theorem onceLinked_reachable : onceLinked.Reachable 0 :=
  .apply _ (.apply _ (.create _ _ _) (Nat.le_refl 0)) (Nat.le_refl 0)

theorem twiceLinked_reachable : twiceLinked.Reachable 0 :=
  .apply _ (.apply _ onceLinked_reachable (Nat.le_refl 0)) (Nat.le_refl 0)

/-- The route to 10.0.0.9 over its link. -/
def linkedRoute : Route .ipv4 where
  destination := .ofNat 0x0a000009
  nextHop := .ofNat 0x0a000009
  iface := sampleAddress
  distance := 1
  path := []

theorem failed_hop_stays_iff_linked :
    ((∃ route ∈ (twiceLinked.linkFailed (.ofNat 0x0a000009) 0).routes,
        route.nextHop = .ofNat 0x0a000009) ∧
      (twiceLinked.linkFailed (.ofNat 0x0a000009) 0).routes = twiceLinked.routes) ∧
    ¬ ∃ route ∈ (onceLinked.linkFailed (.ofNat 0x0a000009) 0).routes,
      route.nextHop = .ofNat 0x0a000009 := by
  have hfirst : onceLinked.routeTo? (.ofNat 0x0a000009) = some linkedRoute := by decide +kernel
  have hsecond : twiceLinked.routeTo? (.ofNat 0x0a000009) = some linkedRoute := by decide +kernel
  have honce := onceLinked_reachable.failed_hop_stays_iff (Nat.le_refl 0) (by decide +kernel)
    (by decide +kernel) hfirst
  have htwice := twiceLinked_reachable.failed_hop_stays_iff (Nat.le_refl 0) (by decide +kernel)
    (by decide +kernel) hsecond
  have hstays := htwice.1.mpr (.inl (by decide +kernel))
  exact ⟨⟨hstays, htwice.2 hstays⟩, fun h => absurd (honce.1.mp h) (by decide +kernel)⟩

end Manet.Router
