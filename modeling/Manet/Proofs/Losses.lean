import Manet.Proofs.FailedHops
import Manet.Proofs.LinkOrigins
import Manet.Proofs.RelayCover
import Manet.Proofs.Stranded
import Manet.Proofs.TwoHopNeighbours

/-!
# Losses of neighbours

A timer or a report of the link layer tells at most one loss, and forgets that neighbour (`Tells`). What it
tells are the symmetric neighbours that it loses, with two exceptions: a neighbour that is stored anew under
the main address of its node goes without a word (`Router.Moves`), and a report may store a neighbour as
symmetric that was not, and lose it with the next link (`Operation.Restores`). In orderly runs there is
neither (`Router.losses_told_iff`).
-/

namespace Manet

variable {F : Family}

namespace Router

variable {now : Time} {r r' r'' : Router F} {a main : Address F}

/-! ## What a loss leaves -/

/-- Nothing depends on `main`, which is no symmetric neighbour. -/
structure Forgets (r : Router F) (main : Address F) : Prop where
  symmetric : r.hasSymmetricNeighbour main = false
  twoHops : ∀ t ∈ r.tables.twoHops, t.neighbour ≠ main
  selectors : r.tables.selectors.contains main = false
  relays : r.tables.mprs.contains main = false
  routes : ∀ route ∈ r.routes, r.mainAddress route.nextHop ≠ main

/-- Relays and routes that are up to date do without `main`. -/
theorem UpToDate.forgets (h : r.UpToDate now) (hs : r.hasSymmetricNeighbour main = false)
    (htwoHops : ∀ t ∈ r.tables.twoHops, t.neighbour ≠ main)
    (hselectors : r.tables.selectors.contains main = false) : r.Forgets main where
  symmetric := hs
  twoHops := htwoHops
  selectors := hselectors
  relays := by
    refine Bool.eq_false_iff.mpr fun hmpr => ?_
    rw [h.relays] at hmpr
    obtain ⟨n, hn, hsym, -⟩ := RelaySelection.isWilling_of_contains_selectRelays hmpr
    rw [hasSymmetricNeighbour, hn, Option.any_some, hsym] at hs
    cases hs
  routes route hroute hto := by
    rw [h.routes] at hroute
    obtain ⟨l, -, -, hsym, hend⟩ := RouteTable.compute_startsAtLinks _ _ _ route hroute
    have hsym : r.hasSymmetricNeighbour (r.mainAddress l.neighbour) = true := hsym
    rw [hend, hto, hs] at hsym
    cases hsym

/-- What is left when two-hop tuples and selectors were dropped, and relays and routes computed anew. -/
theorem loseNeighbour_eq (r : Router F) (main : Address F) (now : Time) :
    let erased := (r.note (.neighbourLost main)).onStore
      fun s => s.eraseAll (twoHopKeys s.tables fun t => t.neighbour = main)
    let dropped := erased.onStore fun s => s.erase (.selector main)
    r.loseNeighbour main now = (dropped.updateRelays.updateRoutes now).call (.neighbourLost main) := rfl

theorem call_tables (r : Router F) (c : Call F) : (r.call c).tables = r.tables := rfl

theorem loseNeighbour_forgets (hs : r.hasSymmetricNeighbour main = false) :
    (r.loseNeighbour main now).Forgets main := by
  let erased := (r.note (.neighbourLost main)).onStore
    fun s => s.eraseAll (twoHopKeys s.tables fun t => t.neighbour = main)
  let dropped := erased.onStore fun s => s.erase (.selector main)
  have hdropped : Does [.dropped .selector] now erased dropped :=
    (Does.nothing erased).deed (.erase (.selector main)) (.dropped .selector) List.mem_cons_self rfl trivial
  have hrest : Does [.journal, .relays, .routes] now dropped (dropped.updateRelays.updateRoutes now) :=
    recompute_does dropped now
  have htables : (r.loseNeighbour main now).tables = (dropped.updateRelays.updateRoutes now).tables := by
    rw [loseNeighbour_eq, call_tables]
  obtain ⟨-, hn, -⟩ := r.loseNeighbour_links main now
  refine (r.loseNeighbour_upToDate main now).forgets ?_ (fun t ht => ?_) ?_
  · rw [hasSymmetricNeighbour_congr hn, hs]
  · rw [htables, hrest.twoHops_eq (by decide), hdropped.twoHops_eq (by decide)] at ht
    exact of_decide_eq_false (mem_eraseTwoHops ht).2
  · have hget : dropped.tables.get? (.selector main) = none :=
      (Store.get?_erase ..).trans (if_pos rfl)
    rw [htables, hrest.selectors_eq (by decide), Table.contains_eq_isSome, Option.map_eq_none_iff.mp hget,
      Option.isSome_none]

/-- What was forgotten does not come back without being stored. -/
theorem Forgets.of_does {ps : List Part} (h : r.Forgets main) (hd : Does ps now r r')
    (hp : ∀ p ∈ ps, p.brings .twoHop = false ∧ p.brings .selector = false) (hu : r'.UpToDate now)
    (hs : r'.hasSymmetricNeighbour main = false) : r'.Forgets main := by
  refine hu.forgets hs (fun t ht => ?_) (Bool.eq_false_iff.mpr fun hmem => ?_)
  · have hget := hd.get?_of_get? (k := .twoHop t.neighbour t.twoHop) (fun p hm => (hp p hm).1)
      (Tables.get?_key_twoHop (Table.get?_eq_some_iff.mpr ⟨ht, rfl⟩))
    obtain ⟨u, hu, he⟩ := Option.map_eq_some_iff.mp hget
    cases he
    exact h.twoHops t (Table.get?_eq_some_iff.mp hu).1
  · rw [Table.contains_eq_isSome] at hmem
    obtain ⟨t, ht⟩ := Option.isSome_iff_exists.mp hmem
    have hget := hd.get?_of_get? (k := .selector main) (fun p hm => (hp p hm).2)
      (congrArg (Option.map TimedTuple.selector) ht)
    obtain ⟨u, hu, -⟩ := Option.map_eq_some_iff.mp hget
    have hstored := h.selectors
    rw [Table.contains_eq_isSome, hu] at hstored
    cases hstored

/-! ## What is lost -/

/-- `main` stops being a symmetric neighbour from `r` to `r'`. -/
def Loses (r r' : Router F) (main : Address F) : Prop :=
  r.hasSymmetricNeighbour main = true ∧ r'.hasSymmetricNeighbour main = false

/-- A link ends at `a`, an interface of another node that is stored as a neighbour from `r'` on. -/
def Moves (r r' : Router F) (a : Address F) : Prop :=
  (∃ l ∈ r.tables.links, l.neighbour = a) ∧ r.mainAddress a ≠ a ∧
    r.tables.neighbours.contains (r.mainAddress a) = false ∧
    r'.tables.neighbours.contains (r.mainAddress a) = true

instance (r r' : Router F) (main : Address F) : Decidable (r.Loses r' main) :=
  inferInstanceAs (Decidable (_ ∧ _))

instance (r r' : Router F) (a : Address F) : Decidable (r.Moves r' a) :=
  inferInstanceAs (Decidable ((∃ l ∈ r.tables.links.toList, _) ∧ _ ∧ _ ∧ _))

theorem contains_of_hasSymmetricNeighbour (h : r.hasSymmetricNeighbour main = true) :
    r.tables.neighbours.contains main = true := by
  obtain ⟨n, hn, -⟩ := (Option.any_eq_true _ _).mp h
  rw [Table.contains_eq_isSome, hn, Option.isSome_some]

/-- Of the neighbours apart from the one with the interface `a` only that may change which is stored under
`a`, if that one is stored anew. -/
structure Checks (a : Address F) (r r' : Router F) : Prop where
  associations : r'.tables.associations = r.tables.associations
  others (m : Address F) : m ≠ r.mainAddress a →
    r'.tables.neighbours.get? m = r.tables.neighbours.get? m ∨
      m = a ∧ r.tables.neighbours.contains (r.mainAddress a) = false ∧
        r'.tables.neighbours.contains (r.mainAddress a) = true

namespace Checks

theorem congr (h : Checks a r' r'') (ha : r'.tables.associations = r.tables.associations)
    (hn : r'.tables.neighbours = r.tables.neighbours) : Checks a r r'' where
  associations := h.associations.trans ha
  others m := by
    have hothers := h.others m
    rwa [mainAddress_congr ha, hn] at hothers

theorem of_eq (ha : r'.tables.associations = r.tables.associations)
    (hn : r'.tables.neighbours = r.tables.neighbours) : Checks a r r' :=
  ⟨ha, fun m _ => .inl (by rw [hn])⟩

theorem then_eq (h : Checks a r r') (ha : r''.tables.associations = r'.tables.associations)
    (hn : r''.tables.neighbours = r'.tables.neighbours) : Checks a r r'' where
  associations := ha.trans h.associations
  others := hn ▸ h.others

/-- Neighbours that are lost besides the one that was checked move. -/
theorem moves (h : Checks a r r') (hlinked : ∃ l ∈ r.tables.links, l.neighbour = a)
    (hne : main ≠ r.mainAddress a) (hl : r.Loses r' main) : r.Moves r' main := by
  obtain hsame | ⟨rfl, hbefore, hafter⟩ := h.others main hne
  · obtain ⟨hsym, hnot⟩ := hl
    rw [hasSymmetricNeighbour, hsame] at hnot
    exact absurd (hnot.symm.trans hsym) Bool.false_ne_true
  · exact ⟨hlinked, hne.symm, hbefore, hafter⟩

/-- The neighbour that was checked does not move if it was stored. -/
theorem not_moves (h : Checks a r r') (hs : r.hasSymmetricNeighbour (r.mainAddress a) = true) :
    ¬ r.Moves r' (r.mainAddress a) := by
  rintro ⟨-, hne, hbefore, hafter⟩
  obtain hsame | ⟨-, hnew, -⟩ := h.others _ hne
  · rw [Table.contains_eq_isSome] at hbefore hafter
    rw [hsame, hbefore] at hafter
    cases hafter
  · rw [contains_of_hasSymmetricNeighbour hs] at hnew
    cases hnew

end Checks

/-! ## Answers to changes of links -/

/-- The loss of the neighbour with the interface `a` is told. -/
structure TellsLoss (a : Address F) (r r' : Router F) : Prop where
  losses : r'.journal.losses = r.journal.losses ++ [r.mainAddress a]
  forgets : r'.Forgets (r.mainAddress a)

/-- No loss is told, and the neighbour with the interface `a` is not lost. -/
structure TellsNothing (a : Address F) (r r' : Router F) : Prop where
  losses : r'.journal.losses = r.journal.losses
  symmetric : r.hasSymmetricNeighbour (r.mainAddress a) = true →
    r'.hasSymmetricNeighbour (r.mainAddress a) = true

/-- What answers a change of a link that ends at `a`: the neighbour behind it is checked, and its loss is
told if it was stored as symmetric and is so no more. -/
structure Answers (a : Address F) (r r' : Router F) : Prop extends Checks a r r' where
  outcome : r.hasSymmetricNeighbour (r.mainAddress a) = true ∧ TellsLoss a r r' ∨ TellsNothing a r r'

/-- Nothing that an answer depends on happened before it. -/
theorem Answers.congr (h : Answers a r' r'') (ha : r'.tables.associations = r.tables.associations)
    (hn : r'.tables.neighbours = r.tables.neighbours) (hl : r'.journal.losses = r.journal.losses) :
    Answers a r r'' := by
  have hmain : r'.mainAddress a = r.mainAddress a := mainAddress_congr ha a
  have hsym := hasSymmetricNeighbour_congr hn (r.mainAddress a)
  refine ⟨h.toChecks.congr ha hn, ?_⟩
  rcases h.outcome with ⟨hs, htold⟩ | hquiet
  · refine .inl ⟨by rw [← hsym, ← hmain, hs], ?_, hmain ▸ htold.forgets⟩
    rw [htold.losses, hl, hmain]
  · refine .inr ⟨hquiet.losses.trans hl, fun hs => hmain ▸ hquiet.symmetric ?_⟩
    rw [hmain, hsym, hs]

theorem storeNeighbour_checks {link : LinkTuple F} {w : Option Willingness} {symmetric : Bool}
    (ha : r'.tables.associations = r.tables.associations)
    (hn : r'.tables.neighbours = (storeNeighbour r.tables link w symmetric).neighbours) :
    Checks link.neighbour r r' where
  associations := ha
  others m hm := by
    rw [hn]
    refine (get?_storeNeighbour_of_ne r.tables link w symmetric hm).imp_right ?_
    rintro ⟨hend, hnew, -⟩
    exact ⟨hend, hnew, r.contains_storeNeighbour link w symmetric⟩

theorem checkNeighbour_answers (r : Router F) (link : LinkTuple F) (now : Time) :
    Answers link.neighbour r (r.checkNeighbour link none now) := by
  obtain ⟨-, hn, ha⟩ := r.checkNeighbour_links link none now
  have hafter := r.hasSymmetricNeighbour_checkNeighbour link now
  refine ⟨storeNeighbour_checks ha hn, ?_⟩
  rcases checkNeighbour_cases r link none now with ⟨hlost, -, -⟩ | ⟨hlost, hsame⟩
  · obtain ⟨hunreached, hu⟩ := updateNeighbour_of_lost hlost
    let stored := r.onTables fun T => storeNeighbour T link none false
    have hmain : stored.mainAddress link.neighbour = r.mainAddress link.neighbour := by
      refine mainAddress_congr ?_ _
      show (storeNeighbour r.tables link none false).associations = _
      rw [storeNeighbour_eq]
    have he : r.checkNeighbour link none now = stored.loseNeighbour (r.mainAddress link.neighbour) now := by
      rw [checkNeighbour_eq, hu, if_pos rfl, hmain]
    have hnot : stored.hasSymmetricNeighbour (r.mainAddress link.neighbour) = false := by
      obtain ⟨-, hn', -⟩ := stored.loseNeighbour_links (r.mainAddress link.neighbour) now
      rw [← hasSymmetricNeighbour_congr hn', ← he, hafter, hunreached]
    refine .inl ⟨hasSymmetricNeighbour_of_lost hlost, ?_, ?_⟩
    · rw [he]
      exact loseNeighbour_losses ..
    · rw [he]
      exact loseNeighbour_forgets hnot
  · refine .inr ⟨hsame.losses, fun hs => ?_⟩
    rw [hafter]
    exact eq_true_of_ne_false fun hunreached =>
      Bool.false_ne_true (hlost.symm.trans (updateNeighbour_loses hs hunreached))

/-- The neighbour whose link was removed is checked over another link to it, or goes. -/
theorem rederive_checks (r : Router F) (b : Address F) (now : Time) :
    ∃ a, (a = b ∨ ∃ l ∈ r.tables.links, l.neighbour = a) ∧ r.mainAddress a = r.mainAddress b ∧
      Checks a r (r.rederive (r.mainAddress b) now) := by
  unfold rederive
  split
  · rename_i other hfind
    obtain ⟨-, hn, ha⟩ := r.updateNeighbour_links other none now
    have hmem : other ∈ r.tables.links := List.mem_of_find?_eq_some hfind
    have hmain : r.mainAddress other.neighbour = r.mainAddress b := by simpa using List.find?_some hfind
    exact ⟨other.neighbour, .inr ⟨other, hmem, rfl⟩, hmain, storeNeighbour_checks ha hn⟩
  · refine ⟨b, .inl rfl, rfl, rfl, fun m hm => .inl ?_⟩
    rw [onTables, Table.get?_erase, if_neg hm]

/-- A loss is told of a neighbour that was derived anew, or relays and routes are computed anew. -/
theorem Checks.answers (h : Checks a r r') (hl : r'.journal.losses = r.journal.losses) (now : Time) :
    Answers a r (if r.hasSymmetricNeighbour (r.mainAddress a) ∧ !r'.hasSymmetricNeighbour (r.mainAddress a) then
      r'.loseNeighbour (r.mainAddress a) now else r'.updateRelays.updateRoutes now) := by
  split
  · rename_i hlost
    obtain ⟨-, hn, ha⟩ := r'.loseNeighbour_links (r.mainAddress a) now
    have hnot : r'.hasSymmetricNeighbour (r.mainAddress a) = false := (Bool.not_eq_true' _).mp hlost.2
    refine ⟨h.then_eq ha hn, .inl ⟨hlost.1, ?_, loseNeighbour_forgets hnot⟩⟩
    rw [loseNeighbour_losses, hl]
  · rename_i hkept
    have hrest := recompute_does r' now
    obtain ⟨-, hn, ha⟩ := hrest.links_eq (by decide)
    refine ⟨h.then_eq ha hn, .inr ⟨(hrest.losses_eq (by decide)).trans hl, fun hs => ?_⟩⟩
    rw [hasSymmetricNeighbour_congr hn]
    exact eq_true_of_ne_false fun hnot => hkept ⟨hs, by rw [hnot]; rfl⟩

theorem linkRemoved_answers (r : Router F) (link : LinkTuple F) (now : Time) :
    ∃ a, (a = link.neighbour ∨ ∃ l ∈ r.tables.links, l.neighbour = a) ∧
      Answers a r (r.linkRemoved link now) := by
  let noted := r.note (.linkRemoved link.iface link.neighbour)
  obtain ⟨a, hlinked, hmain, hchecks⟩ := noted.rederive_checks link.neighbour now
  have hmain : r.mainAddress a = r.mainAddress link.neighbour := hmain
  have hd : Does [.journal, .neighbours, .dropped .twoHop] now noted
      (noted.rederive (r.mainAddress link.neighbour) now) := rederive_does noted _
  have hchecks : Checks a r (noted.rederive (r.mainAddress link.neighbour) now) := hchecks.congr rfl rfl
  have hlosses : (noted.rederive (r.mainAddress link.neighbour) now).journal.losses = r.journal.losses :=
    hd.losses_eq (by decide)
  rw [← hmain] at hchecks hlosses
  rw [linkRemoved_eq, ← hmain]
  exact ⟨a, hlinked, hchecks.answers hlosses now⟩

/-! ## Timers -/

/-- What is told between `r` and `r'`: at most one loss, namely of the symmetric neighbour that is lost,
unless it moves, or of one that is restored; and nothing depends on it any more. -/
structure Tells (restored : Address F → Prop) (r r' : Router F) (told : List (Address F)) : Prop where
  losses : r'.journal.losses = r.journal.losses ++ told
  once : told.length ≤ 1
  mem_iff (m : Address F) : m ∈ told ↔ r.Loses r' m ∧ ¬ r.Moves r' m ∨ restored m
  forgets : ∀ m ∈ told, r'.Forgets m

section Tells

variable {restored : Address F → Prop}

/-- No neighbour changes. -/
theorem Tells.of_eq (hl : r'.journal.losses = r.journal.losses)
    (hn : r'.tables.neighbours = r.tables.neighbours) (hrestored : ∀ m, ¬ restored m) :
    Tells restored r r' [] where
  losses := hl.trans (List.append_nil _).symm
  once := Nat.zero_le 1
  mem_iff m := by
    refine iff_of_false List.not_mem_nil ?_
    rintro (⟨⟨hs, hnot⟩, -⟩ | hm)
    · rw [hasSymmetricNeighbour_congr hn, hs] at hnot
      cases hnot
    · exact hrestored m hm
  forgets := nofun

theorem TellsLoss.tells (h : TellsLoss a r r') (hc : Checks a r r')
    (hlinked : ∃ l ∈ r.tables.links, l.neighbour = a) (hrestored : ∀ m, restored m → m = r.mainAddress a)
    (hcase : r.hasSymmetricNeighbour (r.mainAddress a) = true ∨ restored (r.mainAddress a)) :
    Tells restored r r' [r.mainAddress a] where
  losses := h.losses
  once := Nat.le_refl 1
  mem_iff m := by
    rw [List.mem_singleton]
    constructor
    · rintro rfl
      exact hcase.imp_left fun hs => ⟨⟨hs, h.forgets.symmetric⟩, hc.not_moves hs⟩
    · rintro (⟨hlost, hstays⟩ | hm)
      · exact Classical.byContradiction fun hne => hstays (hc.moves hlinked hne hlost)
      · exact hrestored m hm
  forgets m hm := List.mem_singleton.mp hm ▸ h.forgets

theorem TellsNothing.tells (h : TellsNothing a r r') (hc : Checks a r r')
    (hlinked : ∃ l ∈ r.tables.links, l.neighbour = a) (hrestored : ∀ m, ¬ restored m) :
    Tells restored r r' [] where
  losses := h.losses.trans (List.append_nil _).symm
  once := Nat.zero_le 1
  mem_iff m := by
    refine iff_of_false List.not_mem_nil ?_
    rintro (⟨hlost, hstays⟩ | hm)
    · by_cases hne : m = r.mainAddress a
      · subst hne
        exact Bool.false_ne_true (hlost.2.symm.trans (h.symmetric hlost.1))
      · exact hstays (hc.moves hlinked hne hlost)
    · exact hrestored m hm
  forgets := nofun

end Tells

theorem Answers.tells (h : Answers a r r') (hlinked : ∃ l ∈ r.tables.links, l.neighbour = a) :
    ∃ told, Tells (fun _ => False) r r' told := by
  rcases h.outcome with ⟨hs, htold⟩ | hquiet
  · exact ⟨_, htold.tells h.toChecks hlinked (fun _ => False.elim) (.inl hs)⟩
  · exact ⟨[], hquiet.tells h.toChecks hlinked fun _ => not_false⟩

theorem expire_tells (r : Router F) (key : TupleKey F) (generation : Nat) (now : Time) :
    ∃ told, Tells (fun _ => False) r (r.expire key generation now) told := by
  have ht := r.toStore.tables_expire key generation now
  have hj := (Journal.isTimeless_losses r.journal.losses).expire (s := r.toStore) rfl key generation now
  unfold expire
  dsimp only at *
  generalize r.toStore.expire key generation now = fired at ht hj ⊢
  obtain ⟨expiry, store⟩ := fired
  have hj : store.journal.losses = r.journal.losses := hj
  have hsame (hs : store.tables.neighbours = r.tables.neighbours) :
      ∃ told, Tells (fun _ => False) r { r with toStore := store } told :=
    ⟨[], .of_eq hj hs fun _ => not_false⟩
  have hquiet {ps : List Part} {r' : Router F} (hd : Does ps now { r with toStore := store } r')
      (hn : .neighbours ∉ ps) (hl : .loss ∉ ps) (hs : store.tables.neighbours = r.tables.neighbours) :
      ∃ told, Tells (fun _ => False) r r' told :=
    ⟨[], .of_eq ((hd.losses_eq hl).trans hj) ((hd.neighbours_eq hn).trans hs) fun _ => not_false⟩
  cases expiry with
  | stale =>
    have ht : store.tables = r.tables := ht
    exact hsame (by rw [ht])
  | pending =>
    have ht : store.tables = r.tables := ht
    dsimp only
    split
    · rename_i t hget
      split
      · exact hsame (by rw [ht])
      · have hanswers := checkNeighbour_answers { r with toStore := store } t now
        refine (hanswers.congr (r := r) (by rw [ht]) (by rw [ht]) hj).tells ⟨t, ?_, rfl⟩
        exact Tables.mem_links_of_get? (ht ▸ hget)
    · exact hsame (by rw [ht])
  | expired t =>
    obtain ⟨hget, ht⟩ : r.tables.get? key = some t ∧ store.tables = r.tables.drop key := ht
    obtain rfl := Tables.key_of_get? hget
    cases t with
    | link t =>
      obtain ⟨a, hlinked, hanswers⟩ := linkRemoved_answers { r with toStore := store } t now
      refine (hanswers.congr (r := r) (by rw [ht]; rfl) (by rw [ht]; rfl) hj).tells ?_
      rcases hlinked with rfl | ⟨l, hl, hend⟩
      · exact ⟨t, Tables.mem_links_of_get? hget, rfl⟩
      · have hl : l ∈ (r.tables.drop (TimedTuple.link t).key).links := ht ▸ hl
        exact ⟨l, (Table.mem_erase.mp hl).1, hend⟩
    | twoHop t =>
      exact hquiet (((Does.nothing _).note _ (by decide)).trans (recompute_does _ now)) (by decide) (by decide)
        (ht ▸ rfl)
    | selector t =>
      exact hquiet ((Does.nothing _).note _ (List.mem_singleton.mpr rfl)) (by decide) (by decide) (ht ▸ rfl)
    | topology t | association t =>
      exact hquiet ((Does.nothing _).routes (List.mem_singleton.mpr rfl)) (by decide) (by decide) (ht ▸ rfl)
    | duplicate t => exact hsame (ht ▸ rfl)

theorem handleTimer_tells (r : Router F) (timer : Timer F) (now : Time) :
    ∃ told, Tells (fun _ => False) r (r.handleTimer timer now) told := by
  have hs := r.apply_step now (.timer timer)
  generalize hr' : r.apply now (.timer timer) = r' at hs
  have hr' : r.handleTimer timer now = r' := hr'
  rw [hr']
  cases hs with
  | idle => exact ⟨[], .of_eq rfl rfl fun _ => not_false⟩
  | hello _ _ _ hd | tc _ _ _ hd | mid _ _ _ hd =>
    refine ⟨[], .of_eq ?_ (hd.neighbours_eq (by decide)) fun _ => not_false⟩
    exact (Journal.losses_call _ _).trans ((List.append_nil _).trans (hd.losses_eq (by decide)))
  | flush _ hd => exact ⟨[], .of_eq (hd.losses_eq (by decide)) (hd.neighbours_eq (by decide)) fun _ => not_false⟩
  | expiry key generation hr =>
    rw [← hr', handleTimer, if_pos hr]
    exact expire_tells r key generation now

/-! ## Reports of the link layer -/

namespace Checks

theorem trans (h : Checks a r r') (h' : Checks a r' r'')
    (hkept : r.tables.neighbours.contains (r.mainAddress a) = true →
      r'.tables.neighbours.contains (r.mainAddress a) = true)
    (hkept' : r'.tables.neighbours.contains (r.mainAddress a) = true →
      r''.tables.neighbours.contains (r.mainAddress a) = true) : Checks a r r'' where
  associations := h'.associations.trans h.associations
  others m hm := by
    have hmain := mainAddress_congr h.associations a
    obtain hsame | ⟨hend, hbefore, hafter⟩ := h'.others m (hmain ▸ hm)
    · obtain hsame' | ⟨hend, hbefore, hafter⟩ := h.others m hm
      · exact .inl (hsame.trans hsame')
      · exact .inr ⟨hend, hbefore, hkept' hafter⟩
    · rw [hmain] at hbefore hafter
      refine .inr ⟨hend, Bool.eq_false_iff.mpr fun hstored => ?_, hafter⟩
      exact Bool.false_ne_true (hbefore.symm.trans (hkept hstored))

end Checks

theorem contains_checkNeighbour (r : Router F) (link : LinkTuple F) (now : Time) :
    (r.checkNeighbour link none now).tables.neighbours.contains (r.mainAddress link.neighbour) = true := by
  obtain ⟨-, hn, -⟩ := r.checkNeighbour_links link none now
  rw [hn]
  exact contains_storeNeighbour ..

/-- A link that is taken for lost is a change of it that is answered, and the neighbour stays stored. -/
theorem markLost_answers (r : Router F) (now : Time) {key : Address F × Address F} (hkey : key.2 = a) :
    Answers a r (markLost (now + r.params.neighbourHoldTime) now r key) ∧
      (r.tables.neighbours.contains (r.mainAddress a) = true →
        (markLost (now + r.params.neighbourHoldTime) now r key).tables.neighbours.contains
          (r.mainAddress a) = true) := by
  cases hl : r.tables.links.get? key with
  | none =>
    unfold markLost
    rw [hl]
    exact ⟨⟨.of_eq rfl rfl, .inr ⟨rfl, id⟩⟩, id⟩
  | some link =>
    obtain ⟨hfit, he⟩ := markLost_eq hl now
    obtain rfl : link.neighbour = a := (congrArg Prod.snd (Table.get?_eq_some_iff.mp hl).2).trans hkey
    let new := lostUntil link (now + r.params.neighbourHoldTime)
    let marked := r.perform now (.mark new)
    have hmarked : Does [.stored .link] now r marked :=
      (Does.nothing r).deed (.mark new) (.stored .link) List.mem_cons_self rfl hfit
    have hmain : marked.mainAddress link.neighbour = r.mainAddress link.neighbour :=
      mainAddress_mark r now new link.neighbour
    rw [he]
    refine ⟨(checkNeighbour_answers marked new now).congr ?_ ?_ ?_, fun _ => ?_⟩
    · exact hmarked.associations_eq (by decide)
    · exact hmarked.neighbours_eq (by decide)
    · exact hmarked.losses_eq (by decide)
    · exact hmain ▸ contains_checkNeighbour marked new now

theorem foldl_markLost_checks {hold : Time} {keys : List (Address F × Address F)}
    (hkeys : ∀ key ∈ keys, key.2 = a) (hh : hold = now + r.params.neighbourHoldTime) :
    Checks a r (keys.foldl (markLost hold now) r) ∧
      (r.tables.neighbours.contains (r.mainAddress a) = true →
        (keys.foldl (markLost hold now) r).tables.neighbours.contains (r.mainAddress a) = true) := by
  induction keys generalizing r with
  | nil => exact ⟨.of_eq rfl rfl, id⟩
  | cons key keys ih =>
    subst hh
    obtain ⟨h, hkept⟩ := markLost_answers r now (hkeys key List.mem_cons_self)
    have hd : Does (.stored .link :: upkeep) now r (markLost (now + r.params.neighbourHoldTime) now r key) :=
      markLost_does r key
    obtain ⟨h', hkept'⟩ := ih (fun k hm => hkeys k (List.mem_cons_of_mem _ hm)) (by rw [hd.sameNode.params])
    rw [mainAddress_congr h.associations] at hkept'
    exact ⟨h.toChecks.trans h' hkept hkept', fun hs => hkept' (hkept hs)⟩

/-- The links that are taken for lost after a loss bring nothing back. -/
theorem HasLost.foldl_markLost_forgets {hold : Time} {keys : List (Address F × Address F)}
    (h : HasLost now a r) (hf : r.Forgets (r.mainAddress a)) (hkeys : ∀ key ∈ keys, key.2 = a)
    (hh : hold = now + r.params.neighbourHoldTime) :
    (keys.foldl (Router.markLost hold now) r).Forgets (r.mainAddress a) := by
  have hd : Does (.stored .link :: upkeep) now r (keys.foldl (Router.markLost hold now) r) := by
    refine .foldl fun r' hr' key _ => ?_
    rw [hh, ← hr'.params]
    exact markLost_does r' key
  obtain ⟨hlast, -⟩ := h.foldl_markLost hkeys hh
  obtain ⟨hchecks, -⟩ := foldl_markLost_checks hkeys hh
  refine hf.of_does hd (by decide) hlast.toUpToDate ?_
  rw [← mainAddress_congr hchecks.associations]
  exact hlast.hasSymmetricNeighbour_eq_false

/-- Whatever the links of a report are, one loss is told at most, and what was told stays so. -/
theorem foldl_markLost_outcome {hold : Time} {keys : List (Address F × Address F)}
    (hkeys : ∀ key ∈ keys, key.2 = a) (hf : r.params.useLinkLayerFeedback = true) (hb : r.LossesEnd now)
    (hh : hold = now + r.params.neighbourHoldTime) :
    TellsLoss a r (keys.foldl (markLost hold now) r) ∨ TellsNothing a r (keys.foldl (markLost hold now) r) := by
  induction keys generalizing r with
  | nil => exact .inr ⟨rfl, id⟩
  | cons key keys ih =>
    subst hh
    have hkey := hkeys key List.mem_cons_self
    have hkeys' : ∀ k ∈ keys, k.2 = a := fun k hm => hkeys k (List.mem_cons_of_mem _ hm)
    obtain ⟨h, -⟩ := markLost_answers r now hkey
    have hd : Does (.stored .link :: upkeep) now r (markLost (now + r.params.neighbourHoldTime) now r key) :=
      markLost_does r key
    have hhold : now + r.params.neighbourHoldTime =
        now + (markLost (now + r.params.neighbourHoldTime) now r key).params.neighbourHoldTime := by
      rw [hd.sameNode.params]
    have hmain := mainAddress_congr h.associations a
    rw [List.foldl_cons]
    rcases h.outcome with ⟨-, htold⟩ | hquiet
    · -- the loss was told with this link, and the others change nothing
      have hlost : HasLost now a (markLost (now + r.params.neighbourHoldTime) now r key) := by
        rcases markLost_cases hf hb key with ⟨hlost, -⟩ | hsame
        · exact hkey ▸ hlost
        · exact absurd (List.append_right_eq_self.mp (htold.losses.symm.trans hsame.losses))
            (List.cons_ne_nil _ _)
      obtain ⟨-, hlosses⟩ := hlost.foldl_markLost hkeys' hhold
      refine .inl ⟨hlosses.trans htold.losses, ?_⟩
      exact hmain ▸ hlost.foldl_markLost_forgets (hmain.symm ▸ htold.forgets) hkeys' hhold
    · rcases ih hkeys' (by rw [hd.sameNode.params]; exact hf) (hb.of_does hd) hhold with htold | hquiet'
      · refine .inl ⟨?_, hmain ▸ htold.forgets⟩
        rw [htold.losses, hquiet.losses, hmain]
      · refine .inr ⟨hquiet'.losses.trans hquiet.losses, fun hs => ?_⟩
        exact hmain ▸ hquiet'.symmetric (hmain.symm ▸ hquiet.symmetric hs)

end Router

/-- A report takes the links to the next hop that failed for lost. The node behind it, `main`, is stored as a
symmetric neighbour, which it was not, as long as one of them is left, and nothing reaches it in the end. -/
def Operation.Restores (now : Time) (r : Router F) (op : Operation F) (main : Address F) : Prop :=
  match op with
  | .linkFailed destination => r.hasSymmetricNeighbour main = false ∧
      ∃ a, r.failedHop? destination = some a ∧ r.mainAddress a = main ∧
        ¬ r.IsReachedBeside now a ∧ ¬ r.IsReachedByFirst now a
  | .start _ | .stop | .packet .. | .timer _ | .refresh _ => False

namespace Router

variable {now : Time} {r r' : Router F} {a : Address F}

/-- A report takes the links to the next hop that failed for lost, one after the other. -/
theorem linkFailed_eq_foldl {destination : Address F} (h : r.failedHop? destination = some a) (now : Time) :
    r.params.useLinkLayerFeedback = true ∧ (∃ route ∈ r.routes, route.nextHop = a) ∧
      r.linkFailed destination now = ((r.note (.unreachable a)).keysTo a).foldl
        (markLost (now + r.params.neighbourHoldTime) now) (r.note (.unreachable a)) := by
  unfold failedHop? at h
  split at h
  · rename_i hon
    obtain ⟨route, hroute, rfl⟩ := Option.map_eq_some_iff.mp h
    refine ⟨hon.2, ⟨route, (Table.get?_eq_some_iff.mp hroute).1, rfl⟩, ?_⟩
    rw [linkFailed, if_pos hon, hroute]
    rfl
  · cases h

theorem linkFailed_eq_self {destination : Address F} (h : r.failedHop? destination = none) (now : Time) :
    r.linkFailed destination now = r := by
  unfold failedHop? at h
  unfold linkFailed
  split
  · rename_i hon
    rw [if_pos hon, Option.map_eq_none_iff] at h
    rw [h]
  · rfl

theorem linkFailed_tells {t : Time} (h : r.Reachable t) (ht : t ≤ now) (destination : Address F) :
    ∃ told, Tells ((Operation.linkFailed destination).Restores now r) r (r.linkFailed destination now)
      told := by
  have hb : r.LossesEnd now := h.lossesEnd.mono ht
  cases hhop : r.failedHop? destination with
  | none =>
    rw [linkFailed_eq_self hhop]
    refine ⟨[], .of_eq rfl rfl ?_⟩
    rintro m ⟨-, a, ha, -⟩
    cases hhop.symm.trans ha
  | some a =>
    obtain ⟨hf, ⟨route, hroute, hend⟩, he⟩ := linkFailed_eq_foldl hhop now
    have hlinked : ∃ l ∈ r.tables.links, l.neighbour = a := hend ▸ h.hopsLinked route hroute
    let noted := r.note (.unreachable a)
    have hkeys : ∀ key ∈ noted.keysTo a, key.2 = a := fun _ => snd_of_mem_linkKeys
    have hiff := foldl_keysTo_losses_eq_iff (r := noted) (a := a) hf hb hlinked
    have hhold : now + r.params.neighbourHoldTime = now + noted.params.neighbourHoldTime := rfl
    have hchecks := (foldl_markLost_checks hkeys hhold).1.congr (r := r) rfl rfl
    have honly (m : Address F) (hm : (Operation.linkFailed destination).Restores now r m) :
        m = r.mainAddress a := by
      obtain ⟨-, b, hb, rfl, -⟩ := hm
      cases hhop.symm.trans hb
      rfl
    rw [he]
    rcases foldl_markLost_outcome (r := noted) hkeys hf hb hhold with htold | hquiet
    · have hcosts : ¬ (r.IsReachedBeside now a ∨
          r.hasSymmetricNeighbour (r.mainAddress a) = false ∧ r.IsReachedByFirst now a) := fun hspared =>
        List.cons_ne_nil _ _ (List.append_right_eq_self.mp (htold.losses.symm.trans (hiff.mpr hspared)))
      have hloss : TellsLoss a r ((noted.keysTo a).foldl
        (markLost (now + r.params.neighbourHoldTime) now) noted) := ⟨htold.losses, htold.forgets⟩
      refine ⟨_, hloss.tells hchecks hlinked honly ?_⟩
      cases hs : r.hasSymmetricNeighbour (r.mainAddress a) with
      | true => exact .inl rfl
      | false => exact .inr ⟨hs, a, hhop, rfl, fun hr => hcosts (.inl hr), fun hr => hcosts (.inr ⟨hs, hr⟩)⟩
    · have hnothing : TellsNothing a r ((noted.keysTo a).foldl
        (markLost (now + r.params.neighbourHoldTime) now) noted) := ⟨hquiet.losses, hquiet.symmetric⟩
      refine ⟨[], hnothing.tells hchecks hlinked ?_⟩
      rintro m ⟨-, b, hb, -, hbeside, hfirst⟩
      cases hhop.symm.trans hb
      exact (hiff.mp hquiet.losses).elim hbeside fun h => hfirst h.2

/-! ## Runs -/

theorem ReachableBy.not_isChained {t : Time} (h : r.ReachableBy (fun now r op => op.IsOrderly now r) t) :
    ¬ r.tables.IsChained := by
  cases h with
  | create =>
    rintro ⟨l, hl, -⟩
    exact Table.not_mem_empty l hl
  | apply op _ _ hop => exact hop.2.1

/-- A symmetric neighbour of an orderly run moves nowhere: a link leads to it. -/
theorem ReachableBy.not_moves {t : Time} (h : r.ReachableBy (fun now r op => op.IsOrderly now r) t)
    (hs : r.hasSymmetricNeighbour a = true) : ¬ r.Moves r' a := by
  rintro ⟨⟨l, hl, rfl⟩, hne, -⟩
  refine h.not_isChained ?_
  have hlinked : r.tables.IsLinked l.neighbour := Classical.byContradiction fun hno =>
    (h.mono fun now r op hop => hop.1).not_isStranded l.neighbour ⟨contains_of_hasSymmetricNeighbour hs, hno⟩
  obtain ⟨l', hl', hto⟩ := hlinked
  exact ⟨l, hl, l', hl', hne, hto⟩

/-- A report restores no neighbour of an orderly run: no link to it is idle. -/
theorem ReachableBy.not_restores {t : Time} (h : r.ReachableBy (fun now r op => op.IsOrderly now r) t)
    (ht : t ≤ now) (hlosses : ∀ l ∈ r.tables.links, l.outlivesLoss now = false) (op : Operation F)
    (main : Address F) : ¬ op.Restores now r main := by
  cases op with
  | linkFailed destination =>
    rintro ⟨hs, a, hhop, rfl, -, hfirst⟩
    obtain ⟨hf, -⟩ := linkFailed_eq_foldl hhop now
    refine hfirst fun l hl hto hcounts => ?_
    obtain ⟨hsym, hlost⟩ := of_decide_eq_true hcounts
    have hidle : r.tables.IsIdle now l := by
      refine ⟨hl, hsym, Bool.eq_false_iff.mpr fun hl => ?_, ?_⟩
      · rw [decide_eq_true ⟨hf, hl⟩] at hlost
        cases hlost
      · rw [← hs, ← hto]
        rfl
    obtain hbefore | hover := hidle.earlier ht
    · exact absurd hbefore (h.not_isIdle l)
    · exact absurd ((hlosses l hl).symm.trans hover) Bool.false_ne_true
  | _ => exact not_false

/-- A timer or a report of the link layer tells at most one loss, and nothing depends on that neighbour any
more. Told is the loss of each symmetric neighbour that does not move, and that of a neighbour that was
restored, and no other. In orderly runs the losses told are just those of symmetric neighbours. -/
theorem losses_told_iff {t : Time} (h : r.Reachable t) (now : Time) (ht : t ≤ now) (op : Operation F)
    (hop : (∃ timer, op = .timer timer) ∨ ∃ destination, op = .linkFailed destination) :
    ∃ told, Tells (op.Restores now r) r (r.apply now op) told ∧
      (r.ReachableBy (fun now r op => op.IsOrderly now r) t →
        (∀ l ∈ r.tables.links, l.outlivesLoss now = false) →
        ∀ m, m ∈ told ↔ r.Loses (r.apply now op) m) := by
  have htold : ∃ told, Tells (op.Restores now r) r (r.apply now op) told := by
    rcases hop with ⟨timer, rfl⟩ | ⟨destination, rfl⟩
    · exact handleTimer_tells r timer now
    · exact linkFailed_tells h ht destination
  obtain ⟨told, htold⟩ := htold
  refine ⟨told, htold, fun hby hlosses m => (htold.mem_iff m).trans ?_⟩
  rw [or_iff_left (hby.not_restores ht hlosses op m)]
  exact and_iff_left_of_imp fun hlost => hby.not_moves hlost.1

/-! In the small run the loss of 10.0.0.2 is told when its link has expired. The node to which 10.0.0.2
turned out to be an interface of 10.0.0.9 loses it without a word. -/

theorem sample_orderly : sample.ReachableBy (fun now r op => op.IsOrderly now r) 0 :=
  .apply _ (.apply _ (.create _ _ _) (Nat.le_refl 0) (by decide +kernel)) (Nat.le_refl 0) (by decide +kernel)

theorem losses_told_iff_samples :
    (∃ told, unlinked.journal.losses = sample.journal.losses ++ told ∧ .ofNat 0x0a000002 ∈ told ∧
      unlinked.Forgets (.ofNat 0x0a000002)) ∧
    ∃ told, (renamed.apply (.ofSeconds 6) renamedTimer).journal.losses = renamed.journal.losses ++ told ∧
      renamed.Loses (renamed.apply (.ofSeconds 6) renamedTimer) (.ofNat 0x0a000002) ∧
      .ofNat 0x0a000002 ∉ told := by
  obtain ⟨told, htells, hlosses⟩ := losses_told_iff sample_reachable (.ofSeconds 120) (Nat.zero_le _)
    renamedTimer (.inl ⟨_, rfl⟩)
  obtain ⟨told', htells', -⟩ := losses_told_iff renamed_reachable (.ofSeconds 6) (Nat.zero_le _)
    renamedTimer (.inl ⟨_, rfl⟩)
  have htold : .ofNat 0x0a000002 ∈ told :=
    (hlosses sample_orderly (by decide +kernel) _).mpr (by decide +kernel)
  refine ⟨⟨told, htells.losses, htold, htells.forgets _ htold⟩, told', htells'.losses, by decide +kernel,
    fun h => ?_⟩
  obtain ⟨-, hstays⟩ := ((htells'.mem_iff _).mp h).resolve_right not_false
  exact hstays (by decide +kernel)

end Router

end Manet
