import Manet.Proofs.TableContents
import Manet.RelaySelection

/-!
# The cover that relays make

The work list of a selection holds whole destinations: as long as one pair of a destination is on it,
all eligible pairs of that destination are, and none of the selected neighbours reaches it
(`Tracks`). A selection (`Tracks.select`) drops destinations that it covers and no others. The choice
of the best candidate goes on until the list is empty (`greedy_empties`). So the selected relays cover
every node two hops away, and each of them but those that are always willing was selected for a
destination that none of those reaches (`selectRelays_covers`).
-/

namespace Manet.RelaySelection

variable {F : Family} {node : Address F} {neighbours : Table (NeighbourTuple F)}
variable {twoHops : Table (TwoHopTuple F)} {E pairs : List (Pair F)} {p p' p₀ : Progress F}

/-! ## What is to be covered -/

/-- `a` is a symmetric neighbour. -/
def IsSymmetric (neighbours : Table (NeighbourTuple F)) (a : Address F) : Prop :=
  ∃ n, neighbours.get? a = some n ∧ n.symmetric = true

/-- `a` is a symmetric neighbour that relays at all. -/
def IsWilling (neighbours : Table (NeighbourTuple F)) (a : Address F) : Prop :=
  ∃ n, neighbours.get? a = some n ∧ n.symmetric = true ∧ n.willingness ≠ .never

/-- `a` is a symmetric neighbour that relays for every neighbour. -/
def IsAlwaysWilling (neighbours : Table (NeighbourTuple F)) (a : Address F) : Prop :=
  ∃ n, neighbours.get? a = some n ∧ n.symmetric = true ∧ n.willingness = .always

/-- The neighbour `via` may relay to the node `d`, which is two hops away and no nearer. -/
structure IsEligible (node : Address F) (neighbours : Table (NeighbourTuple F))
    (twoHops : Table (TwoHopTuple F)) (via d : Address F) : Prop where
  reached : twoHops.contains (via, d) = true
  ne_self : d ≠ node
  notSymmetric : ¬ IsSymmetric neighbours d
  willing : IsWilling neighbours via

theorem IsAlwaysWilling.willing {a : Address F} (h : IsAlwaysWilling neighbours a) :
    IsWilling neighbours a := by
  obtain ⟨n, hn, hs, hw⟩ := h
  exact ⟨n, hn, hs, hw ▸ by decide⟩

theorem mem_eligiblePairs {q : Pair F} :
    q ∈ eligiblePairs node neighbours twoHops ↔ IsEligible node neighbours twoHops q.1 q.2 := by
  have hsymmetric (a : Address F) :
      ((neighbours.toList.filter (·.symmetric)).all fun n => n.main ≠ a) = true ↔ ¬ IsSymmetric neighbours a := by
    rw [List.all_eq_true]
    constructor
    · rintro h ⟨n, hn, hs⟩
      obtain ⟨hmem, hmain⟩ := Table.get?_eq_some_iff.mp hn
      exact of_decide_eq_true (h n (List.mem_filter.mpr ⟨hmem, hs⟩)) hmain
    · intro h n hn
      obtain ⟨hmem, hs⟩ := List.mem_filter.mp hn
      exact decide_eq_true fun hmain => h ⟨n, Table.get?_eq_some_iff.mpr ⟨hmem, hmain⟩, hs⟩
  have hwilling (a : Address F) : ((neighbours.toList.filter (·.symmetric)).any
      fun n => n.main = a ∧ n.willingness ≠ .never) = true ↔ IsWilling neighbours a := by
    rw [List.any_eq_true]
    constructor
    · rintro ⟨n, hn, hw⟩
      obtain ⟨hmem, hs⟩ := List.mem_filter.mp hn
      obtain ⟨hmain, hw⟩ := of_decide_eq_true hw
      exact ⟨n, Table.get?_eq_some_iff.mpr ⟨hmem, hmain⟩, hs, hw⟩
    · rintro ⟨n, hn, hs, hw⟩
      obtain ⟨hmem, hmain⟩ := Table.get?_eq_some_iff.mp hn
      exact ⟨n, List.mem_filter.mpr ⟨hmem, hs⟩, decide_eq_true ⟨hmain, hw⟩⟩
  simp only [eligiblePairs, List.mem_map, List.mem_filter, decide_eq_true_eq, hsymmetric, hwilling]
  constructor
  · rintro ⟨t, ⟨ht, hself, hns, hw⟩, rfl⟩
    exact ⟨Table.contains_iff.mpr ⟨t, ht, rfl⟩, hself, hns, hw⟩
  · rintro ⟨hreached, hself, hns, hw⟩
    obtain ⟨t, ht, hkey⟩ := Table.contains_iff.mp hreached
    obtain ⟨hvia, hd⟩ := Prod.mk.inj hkey
    rw [← hvia] at hw
    rw [← hd] at hself hns
    exact ⟨t, ⟨ht, hself, hns, hw⟩, Prod.ext hvia hd⟩

/-! ## A selection -/

theorem mem_cover {via : Address F} {q : Pair F} :
    q ∈ cover pairs via ↔ q ∈ pairs ∧ (via, q.2) ∉ pairs := by
  have hreached : q.2 ∈ (pairs.filter fun p => p.1 = via).map Prod.snd ↔ (via, q.2) ∈ pairs := by
    rw [List.mem_map]
    constructor
    · rintro ⟨p, hp, heq⟩
      obtain ⟨hp, hvia⟩ := List.mem_filter.mp hp
      have hpair : p = (via, q.2) := Prod.ext (of_decide_eq_true hvia) heq
      exact hpair ▸ hp
    · exact fun h => ⟨(via, q.2), List.mem_filter.mpr ⟨h, decide_eq_true rfl⟩, rfl⟩
  rw [cover, List.mem_filter, decide_eq_true_eq, hreached]

theorem mem_selected_select {via a : Address F} :
    a ∈ (p.select via).selected ↔ a = via ∨ a ∈ p.selected := by
  rw [Progress.select, Table.mem_insert]
  constructor
  · rintro (ha | ⟨ha, -⟩)
    · exact .inl ha
    · exact .inr ha
  · rintro (ha | ha)
    · exact .inl ha
    · by_cases heq : a = via
      · exact .inl heq
      · exact .inr ⟨ha, heq⟩

/-- How a progress stands to the eligible pairs `E`. -/
structure Tracks (E : List (Pair F)) (p : Progress F) : Prop where
  subset : ∀ q ∈ p.uncovered, q ∈ E
  /-- All ways to a destination on the work list are on it. -/
  whole : ∀ q ∈ p.uncovered, ∀ via, (via, q.2) ∈ E → (via, q.2) ∈ p.uncovered
  /-- No selected neighbour reaches a destination on the work list. -/
  unreached : ∀ m ∈ p.selected, ∀ q ∈ p.uncovered, (m, q.2) ∉ E
  /-- What is not on the work list is covered. -/
  covered : ∀ q ∈ E, q ∈ p.uncovered ∨ ∃ m ∈ p.selected, (m, q.2) ∈ E

theorem Tracks.start (E : List (Pair F)) : Tracks E ⟨∅, E⟩ where
  subset _ hq := hq
  whole _ _ _ hvia := hvia
  unreached m hm := absurd hm (Table.not_mem_empty m)
  covered _ hq := .inl hq

theorem Tracks.select (h : Tracks E p) (via : Address F) : Tracks E (p.select via) where
  subset q hq := h.subset q (mem_cover.mp hq).1
  whole q hq via' hvia' := by
    obtain ⟨hq, hnot⟩ := mem_cover.mp hq
    exact mem_cover.mpr ⟨h.whole q hq via' hvia', hnot⟩
  unreached m hm q hq hreached := by
    obtain ⟨hold, hnot⟩ := mem_cover.mp hq
    obtain rfl | hm := mem_selected_select.mp hm
    · exact hnot (h.whole q hold m hreached)
    · exact h.unreached m hm q hold hreached
  covered q hq := by
    obtain hold | ⟨m, hm, hreached⟩ := h.covered q hq
    · by_cases hvia : (via, q.2) ∈ p.uncovered
      · exact .inr ⟨via, mem_selected_select.mpr (.inl rfl), h.subset _ hvia⟩
      · exact .inl (mem_cover.mpr ⟨hold, hvia⟩)
    · exact .inr ⟨m, mem_selected_select.mpr (.inr hm), hreached⟩

/-- `p` comes from `p₀` by selections of neighbours that were the way to something. -/
structure Follows (p₀ p : Progress F) : Prop where
  subset : ∀ q ∈ p.uncovered, q ∈ p₀.uncovered
  kept : ∀ m ∈ p₀.selected, m ∈ p.selected
  needed : ∀ m ∈ p.selected, m ∈ p₀.selected ∨ ∃ d, (m, d) ∈ p₀.uncovered

theorem Follows.refl (p : Progress F) : Follows p p := ⟨fun _ hq => hq, fun _ hm => hm, fun _ hm => .inl hm⟩

theorem Follows.select {via : Address F} (h : Follows p₀ p) (hvia : ∃ d, (via, d) ∈ p₀.uncovered) :
    Follows p₀ (p.select via) where
  subset q hq := h.subset q (mem_cover.mp hq).1
  kept m hm := mem_selected_select.mpr (.inr (h.kept m hm))
  needed m hm := by
    obtain rfl | hm := mem_selected_select.mp hm
    · exact .inr hvia
    · exact h.needed m hm

/-! ## The first two phases -/

/-- The addresses of the neighbours that are always willing. -/
def alwaysWilling (neighbours : Table (NeighbourTuple F)) : List (Address F) :=
  (neighbours.toList.filter fun n => n.symmetric ∧ n.willingness = .always).map (·.main)

/-- The progress once the neighbours that are always willing are selected. -/
def withAlways (node : Address F) (neighbours : Table (NeighbourTuple F))
    (twoHops : Table (TwoHopTuple F)) : Progress F :=
  (alwaysWilling neighbours).foldl Progress.select ⟨∅, eligiblePairs node neighbours twoHops⟩

/-- The progress once those that are the only way to some node are selected too. -/
def withSole (node : Address F) (neighbours : Table (NeighbourTuple F))
    (twoHops : Table (TwoHopTuple F)) : Progress F :=
  (soleProviders (withAlways node neighbours twoHops).uncovered).toList.foldl Progress.select
    (withAlways node neighbours twoHops)

theorem run_eq (node : Address F) (neighbours : Table (NeighbourTuple F)) (twoHops : Table (TwoHopTuple F)) :
    run node neighbours twoHops = greedy neighbours twoHops
      (withSole node neighbours twoHops).uncovered.length (withSole node neighbours twoHops) := rfl

theorem mem_alwaysWilling {a : Address F} : a ∈ alwaysWilling neighbours ↔ IsAlwaysWilling neighbours a := by
  rw [alwaysWilling, List.mem_map]
  constructor
  · rintro ⟨n, hn, rfl⟩
    obtain ⟨hmem, hwilling⟩ := List.mem_filter.mp hn
    obtain ⟨hs, hw⟩ := of_decide_eq_true hwilling
    exact ⟨n, Table.get?_eq_some_iff.mpr ⟨hmem, rfl⟩, hs, hw⟩
  · rintro ⟨n, hn, hs, hw⟩
    obtain ⟨hmem, rfl⟩ := Table.get?_eq_some_iff.mp hn
    exact ⟨n, List.mem_filter.mpr ⟨hmem, decide_eq_true ⟨hs, hw⟩⟩, rfl⟩

theorem tracks_foldl_select (h : Tracks E p) (vias : List (Address F)) :
    Tracks E (vias.foldl Progress.select p) :=
  List.foldlRecOn (motive := Tracks E) vias _ h fun _ h via _ => h.select via

theorem mem_selected_foldl_select {vias : List (Address F)} {a : Address F} :
    a ∈ (vias.foldl Progress.select p).selected ↔ a ∈ vias ∨ a ∈ p.selected := by
  induction vias generalizing p with
  | nil => simp
  | cons via vias ih =>
    rw [List.foldl_cons, ih, mem_selected_select, List.mem_cons, ← or_assoc, or_comm (a := a ∈ vias)]

theorem withAlways_tracks (node : Address F) (neighbours : Table (NeighbourTuple F))
    (twoHops : Table (TwoHopTuple F)) :
    Tracks (eligiblePairs node neighbours twoHops) (withAlways node neighbours twoHops) :=
  tracks_foldl_select (.start _) _

theorem mem_selected_withAlways {a : Address F} :
    a ∈ (withAlways node neighbours twoHops).selected ↔ IsAlwaysWilling neighbours a := by
  rw [withAlways, mem_selected_foldl_select, mem_alwaysWilling]
  exact or_iff_left (Table.not_mem_empty a)

theorem exists_mem_of_mem_soleProviders {via : Address F} (h : via ∈ soleProviders pairs) :
    ∃ d, (via, d) ∈ pairs := by
  obtain ⟨q, hq, rfl⟩ := List.mem_map.mp (Table.mem_of_mem_ofList h)
  exact ⟨q.2, (List.mem_filter.mp hq).1⟩

theorem withSole_tracks (node : Address F) (neighbours : Table (NeighbourTuple F))
    (twoHops : Table (TwoHopTuple F)) :
    Tracks (eligiblePairs node neighbours twoHops) (withSole node neighbours twoHops) :=
  tracks_foldl_select (withAlways_tracks node neighbours twoHops) _

theorem withSole_follows (node : Address F) (neighbours : Table (NeighbourTuple F))
    (twoHops : Table (TwoHopTuple F)) :
    Follows (withAlways node neighbours twoHops) (withSole node neighbours twoHops) :=
  List.foldlRecOn (motive := Follows (withAlways node neighbours twoHops)) _ _ (.refl _)
    fun _ h _ hvia => h.select (exists_mem_of_mem_soleProviders hvia)

/-! ## The choice of the best -/

/-- The best candidate is selected again and again until nothing is left to cover. There is no case
for a work list without a candidate. -/
inductive Empties (neighbours : Table (NeighbourTuple F)) (twoHops : Table (TwoHopTuple F)) :
    Progress F → Progress F → Prop where
  | done {p : Progress F} : p.uncovered = [] → Empties neighbours twoHops p p
  | select {p p' : Progress F} {c : Candidate F} : p.uncovered ≠ [] →
      best? (candidates neighbours twoHops p.uncovered) = some c →
      Empties neighbours twoHops (p.select c.main) p' → Empties neighbours twoHops p p'

theorem reach_ne_zero_iff {n : NeighbourTuple F} : reach pairs n ≠ 0 ↔ ∃ d, (n.main, d) ∈ pairs := by
  rw [reach, Nat.ne_zero_iff_zero_lt, List.length_pos_iff_exists_mem]
  constructor
  · rintro ⟨q, hq⟩
    obtain ⟨hq, hmain⟩ := List.mem_filter.mp hq
    exact ⟨q.2, of_decide_eq_true hmain ▸ hq⟩
  · rintro ⟨d, hd⟩
    exact ⟨_, List.mem_filter.mpr ⟨hd, decide_eq_true rfl⟩⟩

theorem mem_candidates {c : Candidate F} : c ∈ candidates neighbours twoHops pairs ↔
    ∃ n ∈ neighbours, n.symmetric = true ∧ reach pairs n ≠ 0 ∧
      c = ⟨n.main, n.willingness, reach pairs n, degree neighbours twoHops n⟩ := by
  rw [candidates, List.mem_map]
  constructor
  · rintro ⟨n, hn, rfl⟩
    obtain ⟨hmem, hn⟩ := List.mem_filter.mp hn
    obtain ⟨hs, hreach⟩ := of_decide_eq_true hn
    exact ⟨n, hmem, hs, hreach, rfl⟩
  · rintro ⟨n, hmem, hs, hreach, rfl⟩
    exact ⟨n, List.mem_filter.mpr ⟨hmem, decide_eq_true ⟨hs, hreach⟩⟩, rfl⟩

theorem mem_of_best? {cs : List (Candidate F)} {c : Candidate F} (h : best? cs = some c) : c ∈ cs := by
  cases cs with
  | nil => cases h
  | cons first rest =>
    cases h
    refine List.foldlRecOn (motive := (· ∈ first :: rest)) rest _ List.mem_cons_self fun best hbest c hc => ?_
    split
    · exact List.mem_cons_of_mem first hc
    · exact hbest

/-- The best candidate is the way to something. -/
theorem exists_mem_of_best? {c : Candidate F} (h : best? (candidates neighbours twoHops pairs) = some c) :
    ∃ d, (c.main, d) ∈ pairs := by
  obtain ⟨n, -, -, hreach, rfl⟩ := mem_candidates.mp (mem_of_best? h)
  exact reach_ne_zero_iff.mp hreach

/-- While there is a pair, there is a candidate: its neighbour. -/
theorem exists_best? (twoHops : Table (TwoHopTuple F)) {q : Pair F} (hq : q ∈ pairs)
    (hwilling : IsWilling neighbours q.1) : ∃ c, best? (candidates neighbours twoHops pairs) = some c := by
  obtain ⟨n, hn, hs, -⟩ := hwilling
  obtain ⟨hmem, hmain : n.main = q.1⟩ := Table.get?_eq_some_iff.mp hn
  have hreach : reach pairs n ≠ 0 := reach_ne_zero_iff.mpr ⟨q.2, hmain ▸ hq⟩
  have hc : _ ∈ candidates neighbours twoHops pairs := mem_candidates.mpr ⟨n, hmem, hs, hreach, rfl⟩
  cases hcs : candidates neighbours twoHops pairs with
  | nil => exact absurd (hcs ▸ hc) List.not_mem_nil
  | cons first rest => exact ⟨_, rfl⟩

theorem length_cover_lt {via d : Address F} (h : (via, d) ∈ pairs) : (cover pairs via).length < pairs.length := by
  refine List.length_filter_lt_length_iff_exists.mpr ⟨(via, d), h, ?_⟩
  have hreached : d ∈ (pairs.filter fun p => p.1 = via).map Prod.snd :=
    List.mem_map.mpr ⟨(via, d), List.mem_filter.mpr ⟨h, decide_eq_true rfl⟩, rfl⟩
  exact fun hkept => of_decide_eq_true hkept hreached

/-- As many rounds as there are pairs are enough to cover everything. -/
theorem greedy_empties (h : Tracks (eligiblePairs node neighbours twoHops) p) {rounds : Nat}
    (hr : p.uncovered.length ≤ rounds) :
    Empties neighbours twoHops p (greedy neighbours twoHops rounds p) := by
  induction rounds generalizing p with
  | zero => exact .done (List.eq_nil_of_length_eq_zero (Nat.le_zero.mp hr))
  | succ rounds ih =>
    rw [greedy]
    split
    · rename_i hnil
      exact .done hnil
    · rename_i hne
      obtain ⟨q, hq⟩ := List.exists_mem_of_ne_nil _ hne
      obtain ⟨c, hc⟩ := exists_best? twoHops hq (mem_eligiblePairs.mp (h.subset q hq)).willing
      obtain ⟨d, hd⟩ := exists_mem_of_best? hc
      rw [hc]
      exact .select hne hc (ih (h.select c.main)
        (Nat.le_of_lt_succ (Nat.lt_of_lt_of_le (length_cover_lt hd) hr)))

theorem Empties.uncovered (h : Empties neighbours twoHops p p') : p'.uncovered = [] := by
  induction h with
  | done hnil => exact hnil
  | select _ _ _ ih => exact ih

theorem Empties.tracks (h : Empties neighbours twoHops p p') (hp : Tracks E p) : Tracks E p' := by
  induction h with
  | done _ => exact hp
  | select _ _ _ ih => exact ih (hp.select _)

theorem Empties.follows (h : Empties neighbours twoHops p p') (hp : Follows p₀ p) : Follows p₀ p' := by
  induction h with
  | done _ => exact hp
  | select _ hbest _ ih =>
    obtain ⟨d, hd⟩ := exists_mem_of_best? hbest
    exact ih (hp.select ⟨d, hp.subset _ hd⟩)

theorem run_empties (node : Address F) (neighbours : Table (NeighbourTuple F))
    (twoHops : Table (TwoHopTuple F)) :
    Empties neighbours twoHops (withSole node neighbours twoHops) (run node neighbours twoHops) := by
  rw [run_eq]
  exact greedy_empties (withSole_tracks node neighbours twoHops) (Nat.le_refl _)

/-- A relay that is not always willing is a way to a node that no neighbour that is always willing covers. -/
theorem exists_uncovered_of_mem_selectRelays {m : Address F} (hm : m ∈ selectRelays node neighbours twoHops)
    (hnot : ¬ IsAlwaysWilling neighbours m) : ∃ d, (m, d) ∈ (withAlways node neighbours twoHops).uncovered :=
  ((run_empties node neighbours twoHops).follows (withSole_follows ..)).needed m hm |>.resolve_left
    fun h => hnot (mem_selected_withAlways.mp h)

/-- All relays are symmetric neighbours that relay at all. -/
theorem isWilling_of_mem_selectRelays {m : Address F} (hm : m ∈ selectRelays node neighbours twoHops) :
    IsWilling neighbours m := by
  by_cases halways : IsAlwaysWilling neighbours m
  · exact halways.willing
  · obtain ⟨d, hd⟩ := exists_uncovered_of_mem_selectRelays hm halways
    exact (mem_eligiblePairs.mp ((withAlways_tracks ..).subset _ hd)).willing

theorem isWilling_of_contains_selectRelays {m : Address F}
    (h : (selectRelays node neighbours twoHops).contains m = true) : IsWilling neighbours m := by
  obtain ⟨a, ha, rfl⟩ := Table.contains_iff.mp h
  exact isWilling_of_mem_selectRelays ha

/-- All relays are willing neighbours, among them all that are always willing. They reach every node
that a willing neighbour reaches and that is two hops away, and each of them but the always willing is
a way to such a node that none of those reaches. The choice of the best ends with nothing left to
cover. -/
theorem selectRelays_covers (node : Address F) (neighbours : Table (NeighbourTuple F))
    (twoHops : Table (TwoHopTuple F)) :
    (∀ m ∈ selectRelays node neighbours twoHops, IsWilling neighbours m) ∧
    (∀ a, IsAlwaysWilling neighbours a → a ∈ selectRelays node neighbours twoHops) ∧
    (∀ n d, IsEligible node neighbours twoHops n d →
      ∃ m ∈ selectRelays node neighbours twoHops, twoHops.contains (m, d) = true) ∧
    (∀ m ∈ selectRelays node neighbours twoHops, ¬ IsAlwaysWilling neighbours m →
      ∃ d, IsEligible node neighbours twoHops m d ∧
        ∀ a, IsAlwaysWilling neighbours a → twoHops.contains (a, d) = false) ∧
    Empties neighbours twoHops (withSole node neighbours twoHops) (run node neighbours twoHops) ∧
    (run node neighbours twoHops).uncovered = [] := by
  have hrun := run_empties node neighbours twoHops
  have htracks := hrun.tracks (withSole_tracks node neighbours twoHops)
  have hfollows := hrun.follows (withSole_follows node neighbours twoHops)
  have hbefore := withAlways_tracks node neighbours twoHops
  refine ⟨fun m hm => isWilling_of_mem_selectRelays hm,
    fun a ha => hfollows.kept a (mem_selected_withAlways.mpr ha), fun n d hd => ?_,
    fun m hm hnot => ?_, hrun, hrun.uncovered⟩
  · obtain hleft | ⟨m, hm, hreached⟩ := htracks.covered (n, d) (mem_eligiblePairs.mpr hd)
    · exact absurd (hrun.uncovered ▸ hleft) List.not_mem_nil
    · exact ⟨m, hm, (mem_eligiblePairs.mp hreached).reached⟩
  · obtain ⟨d, hd⟩ := exists_uncovered_of_mem_selectRelays hm hnot
    have heligible := mem_eligiblePairs.mp (hbefore.subset _ hd)
    refine ⟨d, heligible, fun a ha => Bool.eq_false_iff.mpr fun hreached => ?_⟩
    -- an always willing neighbour would have been selected before, and for this node
    exact hbefore.unreached a (mem_selected_withAlways.mpr ha) _ hd
      (mem_eligiblePairs.mpr ⟨hreached, heligible.ne_self, heligible.notSymmetric, ha.willing⟩)

/-- Neighbours of which the first is always willing and the last never. -/
def sampleNeighbours : Table (NeighbourTuple .ipv4) :=
  .ofList [⟨.ofNat 0x0a000002, .always, true⟩, ⟨.ofNat 0x0a000003, .standard, true⟩,
    ⟨.ofNat 0x0a000004, .standard, true⟩, ⟨.ofNat 0x0a000005, .never, true⟩]

/-- The second and the third neighbour both reach 10.0.0.11 and 10.0.0.12, so that neither is the only
way. Nobody who is willing reaches 10.0.0.13. -/
def sampleTwoHops : Table (TwoHopTuple .ipv4) :=
  .ofList ([(2, 10), (3, 10), (3, 11), (3, 12), (4, 11), (4, 12), (5, 13)].map fun (via, d) =>
    ⟨.ofNat (0x0a000000 + via), .ofNat (0x0a000000 + d), 6⟩)

theorem selectRelays_covers_sample :
    let node : Address .ipv4 := .ofNat 0x0a000001
    let R := selectRelays node sampleNeighbours sampleTwoHops
    (.ofNat 0x0a000003 ∈ R ∧ IsWilling sampleNeighbours (.ofNat 0x0a000003)) ∧
    (IsAlwaysWilling sampleNeighbours (.ofNat 0x0a000002) ∧ .ofNat 0x0a000002 ∈ R) ∧
    (IsEligible node sampleNeighbours sampleTwoHops (.ofNat 0x0a000004) (.ofNat 0x0a00000b) ∧
      ∃ m ∈ R, sampleTwoHops.contains (m, .ofNat 0x0a00000b) = true) ∧
    (¬ IsAlwaysWilling sampleNeighbours (.ofNat 0x0a000003) ∧
      ∃ d, IsEligible node sampleNeighbours sampleTwoHops (.ofNat 0x0a000003) d ∧
        ∀ a, IsAlwaysWilling sampleNeighbours a → sampleTwoHops.contains (a, d) = false) := by
  obtain ⟨hwilling, halways, hcovers, hneeded, -⟩ :=
    selectRelays_covers (.ofNat 0x0a000001) sampleNeighbours sampleTwoHops
  have hsecond : sampleNeighbours.get? (.ofNat 0x0a000003) =
      some ⟨.ofNat 0x0a000003, .standard, true⟩ := by decide +kernel
  have hmem : .ofNat 0x0a000003 ∈ selectRelays (.ofNat 0x0a000001) sampleNeighbours sampleTwoHops := by
    decide +kernel
  have hfirst : IsAlwaysWilling sampleNeighbours (.ofNat 0x0a000002) :=
    ⟨⟨.ofNat 0x0a000002, .always, true⟩, by decide +kernel, rfl, rfl⟩
  have hnot : ¬ IsAlwaysWilling sampleNeighbours (.ofNat 0x0a000003) := by
    rintro ⟨n, hn, -, hw⟩
    cases hsecond.symm.trans hn
    exact absurd hw (by decide)
  have heligible : IsEligible (.ofNat 0x0a000001) sampleNeighbours sampleTwoHops (.ofNat 0x0a000004)
      (.ofNat 0x0a00000b) := by
    refine ⟨by decide +kernel, by decide, ?_, ⟨.ofNat 0x0a000004, .standard, true⟩, by decide +kernel, rfl, by decide⟩
    rintro ⟨n, hn, -⟩
    have hnone : sampleNeighbours.get? (.ofNat 0x0a00000b) = none := by decide +kernel
    exact Option.some_ne_none n (hn.symm.trans hnone)
  exact ⟨⟨hmem, hwilling _ hmem⟩, ⟨hfirst, halways _ hfirst⟩, ⟨heligible, hcovers _ _ heligible⟩, hnot,
    hneeded _ hmem hnot⟩

end Manet.RelaySelection
