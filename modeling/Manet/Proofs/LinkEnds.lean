import Manet.Proofs.NeighbourChecks

/-!
# Neighbours at the ends of links

A node stores a neighbour under its main address, and links under the addresses of their interfaces.
A neighbour is stranded if no link leads to it (`Tables.IsStranded`), and a link that is symmetric
and not lost is idle if the node at its end is not stored as a symmetric neighbour
(`Tables.IsIdle`). `Tables.Calm` says that nothing is stranded or idle that was not so before, and
`Tables.Follows` that this holds of tables whose links end at interfaces with the owners of before.
-/

namespace Manet

variable {F : Family}

namespace Tables

/-- A link leads to the node with main address `main`. -/
def IsLinked (T : Tables F) (main : Address F) : Prop :=
  ∃ l ∈ T.links, T.mainAddress l.neighbour = main

/-- A neighbour is stored to which no link leads. -/
def IsStranded (T : Tables F) (main : Address F) : Prop :=
  T.neighbours.contains main = true ∧ ¬ T.IsLinked main

instance (T : Tables F) (main : Address F) : Decidable (T.IsLinked main) :=
  inferInstanceAs (Decidable (∃ l ∈ T.links.toList, _))

instance (T : Tables F) (main : Address F) : Decidable (T.IsStranded main) :=
  inferInstanceAs (Decidable (_ ∧ _))

/-- A link is symmetric and not lost, and the node at its end is not stored as a symmetric
neighbour. -/
structure IsIdle (T : Tables F) (now : Time) (l : LinkTuple F) : Prop where
  mem : l ∈ T.links
  symmetric : l.isSymmetric now = true
  notLost : l.isLost now = false
  unstored : RouteTable.isSymmetricNeighbour T (T.mainAddress l.neighbour) = false

/-- A link ends at an interface that belongs to another node, and that is itself the main address of
the node at the end of a link. -/
def IsChained (T : Tables F) : Prop :=
  ∃ l ∈ T.links, ∃ l' ∈ T.links,
    T.mainAddress l.neighbour ≠ l.neighbour ∧ T.mainAddress l'.neighbour = l.neighbour

instance (T : Tables F) : Decidable T.IsChained :=
  inferInstanceAs (Decidable (∃ l ∈ T.links.toList, ∃ l' ∈ T.links.toList, _))

/-- All links end at addresses that satisfy `P`. -/
def EndsIn (P : Address F → Prop) (T : Tables F) : Prop := ∀ l ∈ T.links, P l.neighbour

/-- No neighbour is stranded and no link idle in `T'` that was not so in `T`, except that links may
fall idle where interfaces are chained. -/
structure Calm (now : Time) (T T' : Tables F) : Prop where
  stranded : ∀ main, T'.IsStranded main → T.IsStranded main
  idle : ¬ T'.IsChained → ∀ l, T'.IsIdle now l → ∃ l₀, T.IsIdle now l₀ ∧ Keyed.key l₀ = Keyed.key l

/-- Links are kept, addresses that satisfy `P` belong to whom they did, and as long as links end at
such addresses, nothing is stranded or idle that was not so before. -/
structure Follows (P : Address F → Prop) (now : Time) (T T' : Tables F) : Prop where
  kept : ∀ l ∈ T.links, ∃ l' ∈ T'.links, l'.neighbour = l.neighbour
  owners : ∀ a, P a → T'.mainAddress a = T.mainAddress a
  calm : T'.EndsIn P → Calm now T T'

variable {P : Address F → Prop} {now : Time} {T T' T'' : Tables F}

theorem Calm.refl (now : Time) (T : Tables F) : Calm now T T :=
  ⟨fun _ h => h, fun _ l h => ⟨l, h, rfl⟩⟩

theorem EndsIn.of_kept (h : T'.EndsIn P) (hk : ∀ l ∈ T.links, ∃ l' ∈ T'.links, l'.neighbour = l.neighbour) :
    T.EndsIn P := fun l hl => by
  obtain ⟨l', hl', hn⟩ := hk l hl
  exact hn ▸ h l' hl'

/-- A link that is written leaves the ends of links where they were. -/
theorem exists_mem_insert (new : LinkTuple F) {s : Table (LinkTuple F)} {l : LinkTuple F} (h : l ∈ s) :
    ∃ l' ∈ s.insert new, l'.neighbour = l.neighbour := by
  by_cases hk : Keyed.key l = Keyed.key new
  · exact ⟨new, Table.mem_insert.mpr (.inl rfl), (Prod.mk.inj hk).2.symm⟩
  · exact ⟨l, Table.mem_insert.mpr (.inr ⟨h, hk⟩), rfl⟩

namespace Follows

theorem refl (P : Address F → Prop) (now : Time) (T : Tables F) : Follows P now T T :=
  ⟨fun l hl => ⟨l, hl, rfl⟩, fun _ _ => rfl, fun _ => .refl now T⟩

theorem isChained (h : Follows P now T T') (hP : T'.EndsIn P) (hc : T.IsChained) : T'.IsChained := by
  obtain ⟨l, hl, l', hl', hne, he⟩ := hc
  obtain ⟨m, hm, hn⟩ := h.kept l hl
  obtain ⟨m', hm', hn'⟩ := h.kept l' hl'
  refine ⟨m, hm, m', hm', ?_, ?_⟩
  · rw [h.owners _ (hP m hm), hn]
    exact hne
  · rw [h.owners _ (hP m' hm'), hn, hn']
    exact he

theorem trans (h : Follows P now T T') (h' : Follows P now T' T'') : Follows P now T T'' where
  kept l hl := by
    obtain ⟨l', hl', hn⟩ := h.kept l hl
    obtain ⟨l'', hl'', hn'⟩ := h'.kept l' hl'
    exact ⟨l'', hl'', hn'.trans hn⟩
  owners a ha := (h'.owners a ha).trans (h.owners a ha)
  calm hP := by
    have hP' := hP.of_kept h'.kept
    refine ⟨fun main hm => (h.calm hP').stranded main ((h'.calm hP).stranded main hm), fun hc l hl => ?_⟩
    obtain ⟨l', hl', hk'⟩ := (h'.calm hP).idle hc l hl
    obtain ⟨l₀, hl₀, hk⟩ := (h.calm hP').idle (fun hc' => hc (h'.isChained hP hc')) l' hl'
    exact ⟨l₀, hl₀, hk.trans hk'⟩

/-- Links stay, and no neighbour comes or changes sides. -/
theorem of_links (hl : T'.links = T.links) (ho : ∀ a, P a → T'.mainAddress a = T.mainAddress a)
    (hc : ∀ a, T'.neighbours.contains a = true → T.neighbours.contains a = true)
    (hs : ∀ a, RouteTable.isSymmetricNeighbour T' a = RouteTable.isSymmetricNeighbour T a) :
    Follows P now T T' where
  kept l hm := ⟨l, hl ▸ hm, rfl⟩
  owners := ho
  calm hP := by
    refine ⟨fun main ⟨hm, hn⟩ => ⟨hc main hm, ?_⟩, fun _ l h => ⟨l, ⟨hl ▸ h.mem, h.symmetric, h.notLost, ?_⟩, rfl⟩⟩
    · rintro ⟨l, hmem, rfl⟩
      rw [← hl] at hmem
      exact hn ⟨l, hmem, ho _ (hP l hmem)⟩
    · rw [← ho _ (hP l h.mem), ← hs]
      exact h.unstored

/-- Links and neighbours stay. -/
theorem of_owners (hl : T'.links = T.links) (hn : T'.neighbours = T.neighbours)
    (ho : ∀ a, P a → T'.mainAddress a = T.mainAddress a) : Follows P now T T' :=
  of_links hl ho (fun _ h => hn ▸ h) fun a => by rw [RouteTable.isSymmetricNeighbour, hn]; rfl

end Follows

theorem Calm.of_eq (h : T' = T) : Calm now T T' := h ▸ .refl now T

/-- Links and neighbours stay, and so do the owners of the interfaces at the ends of links. -/
theorem Calm.of_ends (hl : T'.links = T.links) (hn : T'.neighbours = T.neighbours)
    (ho : ∀ l ∈ T'.links, T'.mainAddress l.neighbour = T.mainAddress l.neighbour) : Calm now T T' :=
  (Follows.of_owners (P := fun a => T'.mainAddress a = T.mainAddress a) hl hn fun _ h => h).calm ho

end Tables

/-! ## Frames -/

/-- Whether a part is no link. -/
def Part.leavesLinks : Part → Bool
  | stored kind | refreshed kind | dropped kind => kind ≠ .link
  | journal | loss | sending | lasting | neighbours | relays | routes | queue => true

theorem Deed.onTables_of_leavesLinks {d : Deed F} (hd : d.part.leavesLinks = true) (T : Tables F) :
    (d.onTables T).links = T.links := by
  cases d with
  | insert t => cases t <;> first | rfl | cases hd
  | refresh t => cases t <;> first | rfl | cases hd
  | erase k =>
    unfold Deed.onTables
    dsimp only
    split
    · cases k <;> first | rfl | cases hd
    · rfl
  | mark => cases hd
  | _ => rfl

theorem Deed.onTables_neighbours {d : Deed F} (hd : d.part ≠ .neighbours) (T : Tables F) :
    (d.onTables T).neighbours = T.neighbours := by
  cases d with
  | insert t => cases t <;> rfl
  | refresh t => cases t <;> rfl
  | erase k =>
    unfold Deed.onTables
    dsimp only
    split
    · cases k <;> rfl
    · rfl
  | neighbours => exact absurd rfl hd
  | _ => rfl

namespace Does

variable {ps : List Part} {now : Time} {r r' : Router F}

theorem links_of_leavesLinks (h : Does ps now r r') (hp : ∀ p ∈ ps, p.leavesLinks = true) :
    r'.tables.links = r.tables.links := by
  refine h.keep (P := fun r' => r'.tables.links = r.tables.links) (fun r' d hd _ hr => ?_) rfl
  rw [r'.perform_tables, Deed.onTables_of_leavesLinks (hp _ hd), hr]

/-- Links go only where they are dropped. -/
theorem kept (h : Does ps now r r') (hp : .dropped .link ∉ ps) :
    ∀ l ∈ r.tables.links, ∃ l' ∈ r'.tables.links, l'.neighbour = l.neighbour := by
  refine h.keep (P := fun r' => ∀ l ∈ r.tables.links, ∃ l' ∈ r'.tables.links, l'.neighbour = l.neighbour)
    (fun r' d hd _ hr l hl => ?_) fun l hl => ⟨l, hl, rfl⟩
  obtain ⟨l', hl', hn⟩ := hr l hl
  have hwrite (new : LinkTuple F) : ∃ l'' ∈ r'.tables.links.insert new, l''.neighbour = l.neighbour := by
    obtain ⟨l'', hl'', hn'⟩ := Tables.exists_mem_insert new hl'
    exact ⟨l'', hl'', hn'.trans hn⟩
  rw [r'.perform_tables]
  cases d with
  | insert t => cases t <;> first | exact ⟨l', hl', hn⟩ | exact hwrite _
  | refresh t => cases t <;> first | exact ⟨l', hl', hn⟩ | exact hwrite _
  | mark t => exact hwrite t
  | erase k =>
    unfold Deed.onTables
    dsimp only
    split
    · cases k <;> first | exact absurd hd hp | exact ⟨l', hl', hn⟩
    · exact ⟨l', hl', hn⟩
  | _ => exact ⟨l', hl', hn⟩

theorem neighbours_eq (h : Does ps now r r') (hp : .neighbours ∉ ps) :
    r'.tables.neighbours = r.tables.neighbours := by
  refine h.keep (P := fun r' => r'.tables.neighbours = r.tables.neighbours) (fun r' d hd _ hr => ?_) rfl
  rw [r'.perform_tables, Deed.onTables_neighbours fun he => hp (he ▸ hd), hr]

theorem follows (h : Does ps now r r') (hp : ∀ p ∈ ps, p.concernsLinks = false)
    (P : Address F → Prop) : Tables.Follows P now r.tables r'.tables := by
  obtain ⟨hl, hn, ha⟩ := h.links_eq hp
  exact .of_owners hl hn fun a _ => by rw [Tables.mainAddress, ha]; rfl

theorem calm {r₀ : Router F} (h : Does ps now r r') (hp : ∀ p ∈ ps, p.leavesLinks = true)
    (hp' : .neighbours ∉ ps) (hl : r.tables.links = r₀.tables.links)
    (hn : r.tables.neighbours = r₀.tables.neighbours)
    (ho : ∀ l ∈ r'.tables.links, r'.mainAddress l.neighbour = r₀.mainAddress l.neighbour) :
    Tables.Calm now r₀.tables r'.tables :=
  .of_ends ((h.links_of_leavesLinks hp).trans hl) ((h.neighbours_eq hp').trans hn) ho

end Does

namespace Router

variable {now : Time} {r r' : Router F}

/-! ## Neighbours derived from links -/

/-- What deriving the neighbour `main` from the links to it makes of `r`. It is stored only if a link
leads to it, and as a symmetric neighbour if one counts. Of the other neighbours only those may go
that are stored under an interface of `main`. -/
structure Rederives (main : Address F) (now : Time) (r r' : Router F) : Prop where
  links : r'.tables.links = r.tables.links
  associations : r'.tables.associations = r.tables.associations
  stored : ∀ a, r'.tables.neighbours.contains a = true →
    a = main ∧ r.tables.IsLinked main ∨ a ≠ main ∧ r.tables.neighbours.contains a = true
  reached : r.isReached main now = true → r'.hasSymmetricNeighbour main = true
  others : ∀ a, a ≠ main → r'.hasSymmetricNeighbour a = r.hasSymmetricNeighbour a ∨
    ∃ l ∈ r.tables.links, l.neighbour = a ∧ r.mainAddress a = main

theorem Rederives.of_eq {main : Address F} {r₁ : Router F} (h : Rederives main now r r₁)
    (hl : r'.tables.links = r₁.tables.links) (hn : r'.tables.neighbours = r₁.tables.neighbours)
    (ha : r'.tables.associations = r₁.tables.associations) : Rederives main now r r' where
  links := hl.trans h.links
  associations := ha.trans h.associations
  stored := hn ▸ h.stored
  reached := by
    rw [hasSymmetricNeighbour, hn]
    exact h.reached
  others a := by
    rw [hasSymmetricNeighbour, hn]
    exact h.others a

/-- Storing a neighbour takes no other away than the one that is stored under the interface address, and
that one only if the neighbour is new. -/
theorem get?_storeNeighbour_of_ne (T : Tables F) (link : LinkTuple F) (w : Option Willingness)
    (symmetric : Bool) {a : Address F} (h : a ≠ T.mainAddress link.neighbour) :
    (storeNeighbour T link w symmetric).neighbours.get? a = T.neighbours.get? a ∨
      a = link.neighbour ∧ T.neighbours.contains (T.mainAddress link.neighbour) = false ∧
        (storeNeighbour T link w symmetric).neighbours.get? a = none := by
  unfold storeNeighbour
  dsimp only
  split
  · rename_i n hn
    have hk : n.main = T.mainAddress link.neighbour := (Table.get?_eq_some_iff.mp hn).2
    rw [Table.get?_insert]
    exact .inl (if_neg fun he => h (he.symm.trans hk))
  · rename_i hnone
    rw [Table.get?_insert, if_neg fun he => h he.symm]
    split
    · rw [Table.get?_erase]
      by_cases ha : a = link.neighbour
      · exact .inr ⟨ha, by rw [Table.contains_eq_isSome, hnone, Option.isSome_none], if_pos ha⟩
      · exact .inl (if_neg ha)
    · exact .inl rfl

theorem storeNeighbour_rederives {link : LinkTuple F}
    (hlink : ∃ l ∈ r.tables.links, l.neighbour = link.neighbour) (w : Option Willingness) :
    Rederives (r.mainAddress link.neighbour) now r
      (r.onTables fun T => storeNeighbour T link w (r.isReached (r.mainAddress link.neighbour) now)) := by
  have hne {a : Address F} := get?_storeNeighbour_of_ne r.tables link w
    (r.isReached (r.mainAddress link.neighbour) now) (a := a)
  obtain ⟨l, hl, hend⟩ := hlink
  refine ⟨?_, ?_, fun a ha => ?_, fun hreach => ?_, fun a ha => ?_⟩
  · rw [onTables, storeNeighbour_eq]
  · rw [onTables, storeNeighbour_eq]
  · by_cases hm : a = r.mainAddress link.neighbour
    · exact .inl ⟨hm, l, hl, by rw [hend]; rfl⟩
    · rw [Table.contains_eq_isSome] at ha ⊢
      rcases hne hm with hkeep | ⟨-, -, hgone⟩
      · exact .inr ⟨hm, hkeep ▸ ha⟩
      · rw [onTables, hgone] at ha
        cases ha
  · obtain ⟨n, hn, hs⟩ := r.exists_get?_storeNeighbour link w (r.isReached (r.mainAddress link.neighbour) now)
    rw [hasSymmetricNeighbour, onTables, hn]
    exact hs.trans hreach
  · rcases hne ha with hkeep | ⟨hgone, -, -⟩
    · rw [hasSymmetricNeighbour, hasSymmetricNeighbour, onTables, hkeep]
      exact .inl rfl
    · exact .inr ⟨l, hl, hend.trans hgone.symm, by rw [hgone]⟩

theorem updateNeighbour_rederives {link : LinkTuple F}
    (hlink : ∃ l ∈ r.tables.links, l.neighbour = link.neighbour) (w : Option Willingness) :
    Rederives (r.mainAddress link.neighbour) now r (r.updateNeighbour link w now).2 := by
  unfold updateNeighbour
  dsimp only
  split
  · have hd (r : Router F) (p : TwoHopTuple F → Bool) : Does [.dropped .twoHop] now r
        (r.onStore fun s => s.eraseAll (twoHopKeys s.tables p)) := eraseTwoHops_does List.mem_cons_self p r
    obtain ⟨hl, hn, ha⟩ := (hd _ _).links_eq (by decide)
    exact (storeNeighbour_rederives hlink w).of_eq hl hn ha
  · exact storeNeighbour_rederives hlink w

theorem loseNeighbour_rederives {main : Address F} {r₁ : Router F} (h : Rederives main now r r₁)
    (a : Address F) : Rederives main now r (r₁.loseNeighbour a now) := by
  obtain ⟨hl, hn, ha⟩ := r₁.loseNeighbour_links a now
  exact h.of_eq hl hn ha

theorem checkNeighbour_rederives {link : LinkTuple F}
    (hlink : ∃ l ∈ r.tables.links, l.neighbour = link.neighbour) (w : Option Willingness) :
    Rederives (r.mainAddress link.neighbour) now r (r.checkNeighbour link w now) := by
  have hu : Rederives (r.mainAddress link.neighbour) now r (r.updateNeighbour link w now).2 :=
    updateNeighbour_rederives hlink w
  rw [checkNeighbour_eq]
  split
  · exact loseNeighbour_rederives hu _
  · exact hu

theorem rederive_rederives (r : Router F) (main : Address F) (now : Time) :
    Rederives main now r (r.rederive main now) := by
  unfold rederive
  split
  · rename_i other hfind
    have hmain : r.mainAddress other.neighbour = main := by simpa using List.find?_some hfind
    have hmem : other ∈ r.tables.links := List.mem_of_find?_eq_some hfind
    exact hmain ▸ updateNeighbour_rederives ⟨other, hmem, rfl⟩ none
  · rename_i hfind
    have hnone (l : LinkTuple F) (hl : l ∈ r.tables.links) : r.mainAddress l.neighbour ≠ main := fun he =>
      List.find?_eq_none.mp hfind l hl (decide_eq_true he)
    refine ⟨rfl, rfl, fun a ha => ?_, fun hreach => ?_, fun a ha => .inl ?_⟩
    · rw [Table.contains_eq_isSome, onTables, Table.get?_erase] at ha
      by_cases hm : a = main
      · rw [if_pos hm] at ha
        cases ha
      · rw [if_neg hm] at ha
        exact .inr ⟨hm, (Table.contains_eq_isSome ..).trans ha⟩
    · obtain ⟨l, hl, hcount⟩ := List.any_eq_true.mp hreach
      exact absurd (of_decide_eq_true hcount).1 (hnone l hl)
    · rw [hasSymmetricNeighbour, hasSymmetricNeighbour, onTables, Table.get?_erase, if_neg ha]

theorem recompute_does (r : Router F) (now : Time) :
    Does [.journal, .relays, .routes] now r (r.updateRelays.updateRoutes now) :=
  ((updateRelays_does r).mono (by decide)).routes (by decide)

theorem linkRemoved_rederives (r : Router F) (link : LinkTuple F) (now : Time) :
    Rederives (r.mainAddress link.neighbour) now r (r.linkRemoved link now) := by
  let noted := r.note (.linkRemoved link.iface link.neighbour)
  have hr : Rederives (r.mainAddress link.neighbour) now r
      (noted.rederive (r.mainAddress link.neighbour) now) :=
    have h := rederive_rederives noted (r.mainAddress link.neighbour) now
    ⟨h.links, h.associations, h.stored, h.reached, h.others⟩
  rw [linkRemoved_eq]
  dsimp only
  split
  · exact loseNeighbour_rederives hr _
  · obtain ⟨hl, hn, ha⟩ := (recompute_does _ now).links_eq (by decide)
    exact hr.of_eq hl hn ha

/-- Where only links to `main` went, deriving it strands no other neighbour. -/
theorem Rederives.isStranded {main : Address F} {T : Tables F} (h : Rederives main now r r')
    (hn : r.tables.neighbours = T.neighbours) (ha : r.tables.associations = T.associations)
    (hwent : ∀ l ∈ T.links, (∃ l' ∈ r.tables.links, l'.neighbour = l.neighbour) ∨
      T.mainAddress l.neighbour = main) {a : Address F} : r'.tables.IsStranded a → T.IsStranded a := by
  have howner := mainAddress_congr h.associations
  rintro ⟨hstored, hunlinked⟩
  obtain ⟨rfl, l, hl, hlinked⟩ | ⟨hne, hstored⟩ := h.stored a hstored
  · exact absurd ⟨l, h.links ▸ hl, (howner _).trans hlinked⟩ hunlinked
  · refine ⟨hn ▸ hstored, fun ⟨l, hl, hlinked⟩ => ?_⟩
    obtain ⟨l', hl', hend⟩ | hto := hwent l hl
    · refine hunlinked ⟨l', h.links ▸ hl', ?_⟩
      rw [hend, ← hlinked, Tables.mainAddress, h.associations, ha]
      rfl
    · exact hne (hlinked.symm.trans hto)

/-- The node at the end of an idle link is not the one that was derived. -/
theorem Rederives.mainAddress_ne {main : Address F} (h : Rederives main now r r') {l : LinkTuple F}
    (hl : r'.tables.IsIdle now l) : r.mainAddress l.neighbour ≠ main := fun hto => by
  have hunstored : r'.hasSymmetricNeighbour (r.mainAddress l.neighbour) = false :=
    (mainAddress_congr h.associations l.neighbour) ▸ hl.unstored
  have hreached : r.isReached main now = true := by
    refine List.any_eq_true.mpr ⟨l, h.links ▸ hl.mem, decide_eq_true ⟨hto, ?_⟩⟩
    simp [linkCounts, hl.symmetric, hl.notLost]
  rw [hto, h.reached hreached] at hunstored
  cases hunstored

/-- Where only links to `main` came, deriving it makes no link idle if interfaces are not chained. -/
theorem Rederives.isIdle {main : Address F} {T : Tables F} (h : Rederives main now r r')
    (hn : r.tables.neighbours = T.neighbours) (ha : r.tables.associations = T.associations)
    (hcame : ∀ l ∈ r.tables.links, l ∈ T.links ∨ T.mainAddress l.neighbour = main)
    (hc : ¬ r'.tables.IsChained) {l : LinkTuple F} (hl : r'.tables.IsIdle now l) : T.IsIdle now l := by
  have howner := mainAddress_congr h.associations
  have hne := h.mainAddress_ne hl
  obtain hsame | ⟨l', hl', hend, hto⟩ := h.others _ hne
  · have hT : r.mainAddress l.neighbour = T.mainAddress l.neighbour := by
      rw [mainAddress, Tables.mainAddress, ha]
      rfl
    refine ⟨(hcame l (h.links ▸ hl.mem)).resolve_right (hT ▸ hne), hl.symmetric, hl.notLost, ?_⟩
    rw [← hT, RouteTable.isSymmetricNeighbour, ← hn]
    exact hsame.symm.trans ((howner l.neighbour) ▸ hl.unstored)
  · refine absurd ⟨l', h.links ▸ hl', l, hl.mem, ?_, ?_⟩ hc
    · rw [hend]
      exact fun he => hne (he.symm.trans ((howner _).trans hto))
    · exact (howner _).trans hend.symm

/-- Deriving the neighbour `main` leaves nothing stranded or idle if only links to it came or went. -/
theorem Rederives.calm {main : Address F} {T : Tables F} (h : Rederives main now r r')
    (hn : r.tables.neighbours = T.neighbours) (ha : r.tables.associations = T.associations)
    (hcame : ∀ l ∈ r.tables.links, l ∈ T.links ∨ T.mainAddress l.neighbour = main)
    (hwent : ∀ l ∈ T.links, (∃ l' ∈ r.tables.links, l'.neighbour = l.neighbour) ∨
      T.mainAddress l.neighbour = main) :
    Tables.Calm now T r'.tables where
  stranded _ := h.isStranded hn ha hwent
  idle hc l hl := ⟨l, h.isIdle hn ha hcame hc hl, rfl⟩

end Router

end Manet
