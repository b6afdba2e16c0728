import Manet.Proofs.LinkEnds
import Manet.Proofs.Reception

/-!
# HELLOs that come twice

A HELLO that comes again at the same clock reading changes nothing, however it contradicts itself.
What it says of a link, or of a node two hops away, is a list of statements each of which settles a
value or leaves it alone (`IsSettling`), and such a list makes of its own outcome the same outcome.
`Router.Heeds` is what the tables say once a HELLO was taken in: the HELLO leaves such tables alone
(`Heeds.processHello_tables`), and whatever it finds, it leaves such tables behind
(`processHello_heeds`).
-/

namespace Manet

variable {F : Family}

/-! ## Statements that settle a value -/

/-- Each step settles the value, whatever it was, or leaves it alone. -/
def IsSettling {α β : Type} (f : β → α → β) : Prop := ∀ x, (∀ b, f b x = b) ∨ ∃ c, ∀ b, f b x = c

namespace IsSettling

variable {α β : Type} {f : β → α → β}

theorem foldl (h : IsSettling f) (l : List α) :
    (∀ b, l.foldl f b = b) ∨ ∃ c, ∀ b, l.foldl f b = c := by
  induction l with
  | nil => exact .inl fun _ => rfl
  | cons x l ih =>
    rcases ih with hl | ⟨c, hl⟩
    · rcases h x with hx | ⟨c, hx⟩
      · exact .inl fun b => by rw [List.foldl_cons, hl, hx]
      · exact .inr ⟨c, fun b => by rw [List.foldl_cons, hl, hx]⟩
    · exact .inr ⟨c, fun b => hl _⟩

theorem foldl_foldl (h : IsSettling f) (l : List α) (b : β) :
    l.foldl f (l.foldl f b) = l.foldl f b := by
  rcases h.foldl l with hl | ⟨c, hl⟩
  · exact hl _
  · rw [hl, hl]

end IsSettling

namespace Router

variable {now validity : Time} {r r' : Router F} {w : Willingness} {blocks : List (HelloBlock F)}
  {originator receiver sender : Address F}

/-! ## The link -/

/-- Until when a link is symmetric after a block that lists the receiver. -/
def sensedSymTime (now validity : Time) (e : Time) (b : HelloBlock F) : Time :=
  match b.code.link with
  | .lost => now
  | .symmetric | .asymmetric => now + validity
  | .unspecified => e

/-- Until when a link is kept after a block that lists the receiver. -/
def sensedTime (now validity hold : Time) (e : Time) (b : HelloBlock F) : Time :=
  match b.code.link with
  | .symmetric | .asymmetric => now + validity + hold
  | .lost | .unspecified => e

/-- Until when a link is taken for lost after a block that lists the receiver. -/
def sensedLostTime (e : Option Time) (b : HelloBlock F) : Option Time :=
  match b.code.link with
  | .symmetric | .asymmetric => none
  | .lost | .unspecified => e

theorem sensedSymTime_isSettling (now validity : Time) :
    IsSettling (sensedSymTime (F := F) now validity) := by
  intro b
  unfold sensedSymTime
  cases b.code.link with
  | unspecified => exact .inl fun _ => rfl
  | lost => exact .inr ⟨now, fun _ => rfl⟩
  | symmetric | asymmetric => exact .inr ⟨now + validity, fun _ => rfl⟩

theorem sensedTime_isSettling (now validity hold : Time) :
    IsSettling (sensedTime (F := F) now validity hold) := by
  intro b
  unfold sensedTime
  cases b.code.link with
  | unspecified | lost => exact .inl fun _ => rfl
  | symmetric | asymmetric => exact .inr ⟨now + validity + hold, fun _ => rfl⟩

theorem sensedLostTime_isSettling : IsSettling (sensedLostTime (F := F)) := by
  intro b
  unfold sensedLostTime
  cases b.code.link with
  | unspecified | lost => exact .inl fun _ => rfl
  | symmetric | asymmetric => exact .inr ⟨none, fun _ => rfl⟩

theorem senseBlock_eq (now validity hold : Time) (link : LinkTuple F) (b : HelloBlock F) :
    senseBlock now validity hold link b =
      { link with
        symTime := sensedSymTime now validity link.symTime b
        time := sensedTime now validity hold link.time b
        lostTime := sensedLostTime link.lostTime b } := by
  unfold senseBlock sensedSymTime sensedTime sensedLostTime
  cases b.code.link <;> rfl

theorem foldl_senseBlock_eq (now validity hold : Time) (blocks : List (HelloBlock F))
    (link : LinkTuple F) :
    blocks.foldl (senseBlock now validity hold) link =
      { link with
        symTime := blocks.foldl (sensedSymTime now validity) link.symTime
        time := blocks.foldl (sensedTime now validity hold) link.time
        lostTime := blocks.foldl sensedLostTime link.lostTime } := by
  induction blocks generalizing link with
  | nil => rfl
  | cons b blocks ih => rw [List.foldl_cons, ih, senseBlock_eq]; rfl

/-- What a HELLO makes of a link, it makes of it again. -/
theorem senseLink_senseLink (now validity hold : Time) (blocks : List (HelloBlock F))
    (link : LinkTuple F) :
    senseLink now validity hold blocks (senseLink now validity hold blocks link) =
      senseLink now validity hold blocks link := by
  -- the time is settled by the blocks, or only kept from ending before the HELLO does
  have htime : max (blocks.foldl (sensedTime now validity hold)
        (max (blocks.foldl (sensedTime now validity hold) link.time) (now + validity))) (now + validity) =
      max (blocks.foldl (sensedTime now validity hold) link.time) (now + validity) := by
    rcases (sensedTime_isSettling now validity hold).foldl blocks with h | ⟨c, h⟩
    · rw [h, h, Nat.max_assoc, Nat.max_self]
    · rw [h, h]
  unfold senseLink
  dsimp only
  simp only [foldl_senseBlock_eq, (sensedSymTime_isSettling now validity).foldl_foldl,
    sensedLostTime_isSettling.foldl_foldl, htime]

/-! ## Nodes two hops away -/

/-- What a statement of the originator makes of the two-hop tuple with the given key. -/
def heldTwoHop (r : Router F) (originator : Address F) (validUntil : Time)
    (key : Address F × Address F) (held : Option (TwoHopTuple F)) (said : NeighbourType × Address F) :
    Option (TwoHopTuple F) :=
  let twoHop := r.mainAddress said.2
  if (originator, twoHop) = key then
    match said.1 with
    | .notNeighbour => none
    | .symmetric | .mpr =>
      if r.isLocal twoHop ∨ r.hasSymmetricNeighbour twoHop then held
      else some ⟨originator, twoHop, validUntil⟩
  else held

theorem heldTwoHop_isSettling (r : Router F) (originator : Address F) (validUntil : Time)
    (key : Address F × Address F) : IsSettling (heldTwoHop r originator validUntil key) := by
  intro ⟨type, a⟩
  unfold heldTwoHop
  dsimp only
  split
  · cases type with
    | notNeighbour => exact .inr ⟨none, fun _ => rfl⟩
    | symmetric | mpr =>
      dsimp only
      split
      · exact .inl fun _ => rfl
      · exact .inr ⟨_, fun _ => rfl⟩
  · exact .inl fun _ => rfl

/-- `r` and `r'` are the same node with the same neighbours, and see the same owners of interfaces. -/
structure SameView (r r' : Router F) : Prop where
  node : SameNode r r'
  links : r'.tables.links = r.tables.links
  neighbours : r'.tables.neighbours = r.tables.neighbours
  associations : r'.tables.associations = r.tables.associations

theorem SameView.trans {r'' : Router F} (h : SameView r r') (h' : SameView r' r'') : SameView r r'' :=
  ⟨h.node.trans h'.node, h'.links.trans h.links, h'.neighbours.trans h.neighbours,
    h'.associations.trans h.associations⟩

theorem SameView.of_does {ps : List Part} (h : Does ps now r r')
    (hp : ∀ p ∈ ps, p.concernsLinks = false) : SameView r r' :=
  have ⟨hl, hn, ha⟩ := h.links_eq hp
  ⟨h.sameNode, hl, hn, ha⟩

theorem hasSymmetricNeighbour_congr (hn : r'.tables.neighbours = r.tables.neighbours)
    (main : Address F) : r'.hasSymmetricNeighbour main = r.hasSymmetricNeighbour main := by
  rw [hasSymmetricNeighbour, hn]
  rfl

theorem SameView.heldTwoHop_eq (h : SameView r r') (originator : Address F) (validUntil : Time)
    (key : Address F × Address F) :
    heldTwoHop r' originator validUntil key = heldTwoHop r originator validUntil key := by
  funext held said
  unfold heldTwoHop
  dsimp only
  rw [mainAddress_congr h.associations, h.node.isLocal_eq, hasSymmetricNeighbour_congr h.neighbours]

theorem recordTwoHop_get? (r : Router F) (originator : Address F) (validUntil now : Time)
    (said : NeighbourType × Address F) (key : Address F × Address F) :
    (recordTwoHop originator validUntil now r said).tables.twoHops.get? key =
      heldTwoHop r originator validUntil key (r.tables.twoHops.get? key) said := by
  obtain ⟨type, a⟩ := said
  have hstored : (r.tables.twoHops.insert ⟨originator, r.mainAddress a, validUntil⟩).get? key =
      if (originator, r.mainAddress a) = key then some ⟨originator, r.mainAddress a, validUntil⟩
      else r.tables.twoHops.get? key := Table.get?_insert ..
  unfold recordTwoHop heldTwoHop
  cases type with
  | notNeighbour =>
    have herase := Store.get?_erase r.toStore (.twoHop originator (r.mainAddress a))
      (.twoHop key.1 key.2)
    refine Option.map_injective (fun _ _ => TimedTuple.twoHop.inj) (herase.trans ?_)
    simp only [TupleKey.twoHop.injEq, Prod.ext_iff, eq_comm (a := key.1), eq_comm (a := key.2)]
    split <;> rfl
  | symmetric | mpr =>
    dsimp only
    by_cases hknown : r.isLocal (r.mainAddress a) ∨ r.hasSymmetricNeighbour (r.mainAddress a)
    · rw [if_pos hknown, if_pos hknown, ite_self]
    · rw [if_neg hknown, if_neg hknown, ← hstored]
      cases ht : r.tables.twoHops.get? (originator, r.mainAddress a) with
      | none => exact congrArg (fun T : Tables F => T.twoHops.get? key) (Store.tables_insert ..)
      | some t =>
        obtain ⟨hn, hm⟩ := Prod.mk.inj (Table.get?_eq_some_iff.mp ht).2
        rw [← hn, ← hm]
        rfl

theorem recordTwoHop_tables_eq (r : Router F) (originator : Address F) (validUntil now : Time)
    (said : NeighbourType × Address F) :
    (recordTwoHop originator validUntil now r said).tables =
      { r.tables with twoHops := (recordTwoHop originator validUntil now r said).tables.twoHops } := by
  unfold recordTwoHop
  dsimp only
  split
  · rw [tables_onStore_erase]
    split <;> rfl
  all_goals
    split
    · rfl
    · split
      · rfl
      · rw [tables_onStore_insert]
        rfl

theorem recordTwoHops_tables_eq (r : Router F) (originator : Address F) (validity : Time)
    (blocks : List (HelloBlock F)) (now : Time) :
    (r.recordTwoHops originator validity blocks now).tables =
      { r.tables with twoHops := (r.recordTwoHops originator validity blocks now).tables.twoHops } := by
  unfold recordTwoHops
  split
  · refine List.foldlRecOn (motive := fun r' : Router F =>
      r'.tables = { r.tables with twoHops := r'.tables.twoHops }) _ _ rfl fun r' hr said _ => ?_
    rw [recordTwoHop_tables_eq, hr]
  · rfl

/-- What the originator says of nodes two hops away, node by node. -/
theorem recordTwoHops_get? (r : Router F) (originator : Address F) (validity : Time)
    (blocks : List (HelloBlock F)) (now : Time) (hears : r.hearsNode originator now = true)
    (key : Address F × Address F) :
    (r.recordTwoHops originator validity blocks now).tables.twoHops.get? key =
      (statements blocks).foldl (heldTwoHop r originator (now + validity) key)
        (r.tables.twoHops.get? key) := by
  rw [recordTwoHops, if_pos hears]
  clear hears
  generalize statements blocks = said
  induction said generalizing r with
  | nil => rfl
  | cons x said ih =>
    have hview : SameView r (recordTwoHop originator (now + validity) now r x) :=
      .of_does (recordTwoHop_does r originator (Nat.le_add_right ..) x) (by decide)
    rw [List.foldl_cons, ih, recordTwoHop_get?, hview.heldTwoHop_eq, List.foldl_cons]

/-! ## What a HELLO leaves behind -/

/-- The link that a HELLO came over, and the neighbour at its other end, are as the HELLO says. -/
structure Sensed (now validity : Time) (w : Willingness) (blocks : List (HelloBlock F))
    (receiver sender : Address F) (r : Router F) : Prop where
  link : ∃ link, r.tables.links.get? (receiver, sender) = some link ∧
    senseLink now validity r.params.neighbourHoldTime (blocks.filter fun b => receiver ∈ b.addresses)
      link = link
  neighbour : (blocks.filter fun b => receiver ∈ b.addresses).any saysLinkState = true →
    r.tables.neighbours.get? (r.mainAddress sender) =
      some ⟨r.mainAddress sender, w, r.isReached (r.mainAddress sender) now⟩

/-- The tables are as a HELLO says. -/
structure Heeds (now : Time) (originator : Address F) (validity : Time) (w : Willingness)
    (blocks : List (HelloBlock F)) (receiver sender : Address F) (r : Router F) : Prop
    extends Sensed now validity w blocks receiver sender r where
  willingness : ∀ n, r.tables.neighbours.get? originator = some n → n.willingness = w
  twoHops : r.hearsNode originator now = true → ∀ key,
    (statements blocks).foldl (heldTwoHop r originator (now + validity) key)
      (r.tables.twoHops.get? key) = r.tables.twoHops.get? key
  relays : r.RelaysCurrent
  selector : r.isSelectedBy blocks = true →
    r.tables.selectors.get? originator = some ⟨originator, now + validity⟩

/-- Links, their ends and the neighbour at the end of the link matter, and nothing else. -/
theorem Sensed.congr (h : Sensed now validity w blocks receiver sender r) (hp : r'.params = r.params)
    (hl : r'.tables.links = r.tables.links) (ha : r'.tables.associations = r.tables.associations)
    (hn : ∀ n, r.tables.neighbours.get? (r.mainAddress sender) = some n → n.willingness = w →
      r'.tables.neighbours.get? (r.mainAddress sender) = some n) :
    Sensed now validity w blocks receiver sender r' := by
  refine ⟨?_, fun htells => ?_⟩
  · rw [hl, hp]
    exact h.link
  · rw [mainAddress_congr ha, isReached_congr hl ha hp]
    exact hn _ (h.neighbour htells) rfl

theorem hearsNode_congr (hl : r'.tables.links = r.tables.links)
    (ha : r'.tables.associations = r.tables.associations) (main : Address F) (now : Time) :
    r'.hearsNode main now = r.hearsNode main now := by
  simp only [hearsNode, hl, mainAddress_congr ha]

theorem isSelectedBy_congr (hn : r'.address = r.address)
    (ha : r'.tables.associations = r.tables.associations) (blocks : List (HelloBlock F)) :
    r'.isSelectedBy blocks = r.isSelectedBy blocks := by
  simp only [isSelectedBy, hn, mainAddress_congr ha]

namespace Heeds

/-- Only the tables matter. -/
theorem congr (h : Heeds now originator validity w blocks receiver sender r) (hn : SameNode r r')
    (ht : r'.tables = r.tables) : Heeds now originator validity w blocks receiver sender r' := by
  have ha : r'.tables.associations = r.tables.associations := congrArg _ ht
  have hl : r'.tables.links = r.tables.links := congrArg _ ht
  have hview : SameView r r' := ⟨hn, hl, congrArg _ ht, ha⟩
  refine ⟨h.toSensed.congr hn.params hl ha fun n hget _ => ht ▸ hget, ?_, ?_, ?_, ?_⟩
  · rw [ht]
    exact h.willingness
  · rw [hearsNode_congr hl ha, ht]
    simpa only [hview.heldTwoHop_eq] using h.twoHops
  · exact h.relays.congr hn.address (by rw [ht]) (by rw [ht]) (by rw [ht])
  · rw [isSelectedBy_congr hn.address ha, ht]
    exact h.selector

/-! A HELLO that is heeded is taken in without an effect on the tables. -/

theorem senseHello_tables (h : Heeds now originator validity w blocks receiver sender r) :
    (r.senseHello validity w blocks receiver sender now).tables = r.tables := by
  obtain ⟨link, hlink, hsense⟩ := h.link
  obtain ⟨-, hsender⟩ := Prod.mk.inj (Table.get?_eq_some_iff.mp hlink).2
  unfold senseHello
  rw [hlink]
  dsimp only
  rw [hsense]
  have hsame : (r.onStore (·.overwrite (.link link))).tables = r.tables :=
    congrArg (fun links => { r.tables with links })
      (Table.insert_eq_self ((Table.get?_eq_some_iff.mp hlink).2 ▸ hlink))
  split
  · rename_i htells
    have hn : (r.onStore (·.overwrite (.link link))).tables.neighbours.get?
        ((r.onStore (·.overwrite (.link link))).mainAddress link.neighbour) =
          some ⟨r.mainAddress sender, w, r.isReached (r.mainAddress sender) now⟩ := by
      rw [mainAddress_congr (congrArg _ hsame), hsame, hsender]
      exact h.neighbour htells
    have hreached : (r.onStore (·.overwrite (.link link))).isReached
        ((r.onStore (·.overwrite (.link link))).mainAddress link.neighbour) now =
          r.isReached (r.mainAddress sender) now := by
      rw [isReached_congr (congrArg _ hsame) (congrArg _ hsame) rfl,
        mainAddress_congr (congrArg _ hsame), hsender]
    rw [checkNeighbour_eq_self_of_willing hn hreached.symm rfl]
    exact hsame
  · exact hsame

theorem recordWillingness_tables (h : Heeds now originator validity w blocks receiver sender r) :
    (r.recordWillingness originator w).tables = r.tables := by
  unfold recordWillingness
  split
  · rfl
  · rename_i n hn
    obtain rfl : n.willingness = w := h.willingness n hn
    have hk : Keyed.key n = originator := (Table.get?_eq_some_iff.mp hn).2
    exact congrArg (fun neighbours => { r.tables with neighbours })
      (Table.insert_eq_self (t := n) (hk ▸ hn))

theorem recordTwoHops_tables (h : Heeds now originator validity w blocks receiver sender r) :
    (r.recordTwoHops originator validity blocks now).tables = r.tables := by
  cases hears : r.hearsNode originator now with
  | false => rw [recordTwoHops, if_neg (hears ▸ Bool.false_ne_true)]
  | true =>
    have hsame : (r.recordTwoHops originator validity blocks now).tables.twoHops = r.tables.twoHops :=
      Table.ext_get? fun key => by rw [recordTwoHops_get? _ _ _ _ _ hears, h.twoHops hears]
    rw [recordTwoHops_tables_eq, hsame]

theorem updateRelays_tables (h : Heeds now originator validity w blocks receiver sender r) :
    r.updateRelays.tables = r.tables := by
  obtain ⟨j, hj⟩ := r.updateRelays_eq
  rw [hj, ← h.relays]

theorem recordSelector_tables (h : Heeds now originator validity w blocks receiver sender r) :
    (r.recordSelector originator validity blocks now).tables = r.tables := by
  unfold recordSelector
  split
  · rename_i hs
    rw [h.selector hs]
    exact congrArg (fun selectors => { r.tables with selectors })
      (Table.insert_eq_self (t := ⟨originator, now + validity⟩) (h.selector hs))
  · rfl

theorem processHello_tables (h : Heeds now originator validity w blocks receiver sender r) :
    (r.processHello originator validity w blocks receiver sender now).tables = r.tables := by
  unfold processHello
  dsimp only
  let r₁ := r.senseHello validity w blocks receiver sender now
  let r₂ := r₁.recordWillingness originator w
  let r₃ := r₂.recordTwoHops originator validity blocks now
  have hd₁ : Does sensing now r r₁ := senseHello_does ..
  have hd₂ : Does [.neighbours] now r₁ r₂ := recordWillingness_does ..
  have hd₃ : Does [.journal, .stored .twoHop, .refreshed .twoHop, .dropped .twoHop] now r₂ r₃ :=
    recordTwoHops_does ..
  have hd₄ : Does [.journal, .relays] now r₃ r₃.updateRelays := updateRelays_does _
  have h₁ : Heeds now originator validity w blocks receiver sender r₁ :=
    h.congr hd₁.sameNode h.senseHello_tables
  have h₂ := h₁.congr hd₂.sameNode h₁.recordWillingness_tables
  have h₃ := h₂.congr hd₃.sameNode h₂.recordTwoHops_tables
  have h₄ := h₃.congr hd₄.sameNode h₃.updateRelays_tables
  calc (r₃.updateRelays.recordSelector originator validity blocks now).tables
      = r₃.updateRelays.tables := h₄.recordSelector_tables
    _ = r₃.tables := h₃.updateRelays_tables
    _ = r₂.tables := h₂.recordTwoHops_tables
    _ = r₁.tables := h₁.recordWillingness_tables
    _ = r.tables := h.senseHello_tables

end Heeds

/-! Each part of taking in a HELLO leaves behind what the HELLO says. -/

theorem updateNeighbour_links (r : Router F) (link : LinkTuple F) (w : Option Willingness)
    (now : Time) :
    (r.updateNeighbour link w now).2.tables.links = r.tables.links ∧
      (r.updateNeighbour link w now).2.tables.neighbours =
        (storeNeighbour r.tables link w (r.isReached (r.mainAddress link.neighbour) now)).neighbours ∧
      (r.updateNeighbour link w now).2.tables.associations = r.tables.associations := by
  let T := storeNeighbour r.tables link w (r.isReached (r.mainAddress link.neighbour) now)
  have hlinks : T.links = r.tables.links := by
    unfold T
    rw [storeNeighbour_eq]
  have hassociations : T.associations = r.tables.associations := by
    unfold T
    rw [storeNeighbour_eq]
  have herase (r : Router F) (p : TwoHopTuple F → Bool) : Does [.dropped .twoHop] now r
      (r.onStore fun s => s.eraseAll (twoHopKeys s.tables p)) :=
    eraseTwoHops_does List.mem_cons_self p r
  unfold updateNeighbour
  dsimp only
  split
  · obtain ⟨hl, hn, ha⟩ := (herase _ _).links_eq (by decide)
    exact ⟨hl.trans hlinks, hn, ha.trans hassociations⟩
  · exact ⟨hlinks, rfl, hassociations⟩

theorem checkNeighbour_links (r : Router F) (link : LinkTuple F) (w : Option Willingness)
    (now : Time) :
    (r.checkNeighbour link w now).tables.links = r.tables.links ∧
      (r.checkNeighbour link w now).tables.neighbours =
        (storeNeighbour r.tables link w (r.isReached (r.mainAddress link.neighbour) now)).neighbours ∧
      (r.checkNeighbour link w now).tables.associations = r.tables.associations := by
  obtain ⟨hl, hn, ha⟩ := r.updateNeighbour_links link w now
  rw [checkNeighbour_eq]
  split
  · obtain ⟨hl', hn', ha'⟩ := (r.updateNeighbour link w now).2.loseNeighbour_links
      ((r.updateNeighbour link w now).2.mainAddress link.neighbour) now
    exact ⟨hl'.trans hl, hn'.trans hn, ha'.trans ha⟩
  · exact ⟨hl, hn, ha⟩

theorem get?_storeNeighbour_some (T : Tables F) (link : LinkTuple F) (w : Willingness)
    (symmetric : Bool) :
    (storeNeighbour T link (some w) symmetric).neighbours.get? (T.mainAddress link.neighbour) =
      some ⟨T.mainAddress link.neighbour, w, symmetric⟩ := by
  unfold storeNeighbour
  dsimp only
  split
  · rename_i n hn
    obtain ⟨main, w', s⟩ := n
    obtain rfl : main = T.mainAddress link.neighbour := (Table.get?_eq_some_iff.mp hn).2
    exact (Table.get?_insert ..).trans (if_pos rfl)
  · exact (Table.get?_insert ..).trans (if_pos rfl)

/-- A check leaves a link alone, and the neighbour at its end as its links make it. -/
theorem checkNeighbour_sensed {link : LinkTuple F}
    (hlink : r.tables.links.get? (receiver, sender) = some link)
    (hsense : senseLink now validity r.params.neighbourHoldTime
      (blocks.filter fun b => receiver ∈ b.addresses) link = link) :
    Sensed now validity w blocks receiver sender (r.checkNeighbour link (some w) now) := by
  obtain ⟨-, hend⟩ := Prod.mk.inj (Table.get?_eq_some_iff.mp hlink).2
  obtain ⟨hl, hn, ha⟩ := r.checkNeighbour_links link (some w) now
  have hd : Does upkeep now r (r.checkNeighbour link (some w) now) := checkNeighbour_does ..
  refine ⟨⟨link, by rw [hl, hlink], by rw [hd.sameNode.params, hsense]⟩, fun _ => ?_⟩
  rw [mainAddress_congr ha, isReached_congr hl ha hd.sameNode.params, hn, ← hend]
  exact get?_storeNeighbour_some ..

theorem senseHello_sensed (r : Router F) (validity : Time) (w : Willingness)
    (blocks : List (HelloBlock F)) (receiver sender : Address F) (now : Time) :
    Sensed now validity w blocks receiver sender
      (r.senseHello validity w blocks receiver sender now) := by
  let sense := senseLink now validity r.params.neighbourHoldTime
    (blocks.filter fun b => receiver ∈ b.addresses)
  have hstored (old : LinkTuple F) (hkey : (old.iface, old.neighbour) = (receiver, sender)) :
      (r.tables.links.insert (sense old)).get? (receiver, sender) = some (sense old) := by
    obtain ⟨hi, hn, -⟩ := senseLink_spec now validity r.params.neighbourHoldTime
      (blocks.filter fun b => receiver ∈ b.addresses) old
    exact (Table.get?_insert ..).trans (if_pos ((Prod.ext hi hn).trans hkey))
  unfold senseHello
  dsimp only
  split
  · refine checkNeighbour_sensed ?_ (senseLink_senseLink ..)
    rw [tables_onStore_insert]
    exact hstored (freshLink receiver sender now validity) rfl
  · rename_i old hold
    have hlink : (r.onStore (·.overwrite (.link (sense old)))).tables.links.get? (receiver, sender) =
        some (sense old) := hstored old (Table.get?_eq_some_iff.mp hold).2
    split
    · exact checkNeighbour_sensed hlink (senseLink_senseLink ..)
    · rename_i htells
      exact ⟨⟨sense old, hlink, senseLink_senseLink ..⟩, fun h => absurd h htells⟩

theorem recordWillingness_eq (r : Router F) (originator : Address F) (w : Willingness) :
    ∃ table, r.recordWillingness originator w = r.onTables ({ · with neighbours := table }) := by
  unfold recordWillingness
  split
  · exact ⟨r.tables.neighbours, rfl⟩
  · exact ⟨_, rfl⟩

theorem recordWillingness_get? (r : Router F) (originator : Address F) (w : Willingness)
    (main : Address F) :
    (r.recordWillingness originator w).tables.neighbours.get? main =
      if main = originator then (r.tables.neighbours.get? main).map fun n => { n with willingness := w }
      else r.tables.neighbours.get? main := by
  unfold recordWillingness
  split
  · rename_i hnone
    split
    · rename_i hmain
      rw [hmain, hnone]
      rfl
    · rfl
  · rename_i n hn
    have hk : n.main = originator := (Table.get?_eq_some_iff.mp hn).2
    refine (Table.get?_insert ..).trans ?_
    by_cases hmain : main = originator
    · rw [if_pos hmain, hmain, hn]
      exact if_pos hk
    · rw [if_neg hmain]
      exact if_neg fun h => hmain (h.symm.trans hk)

theorem recordSelector_get? (r : Router F) (originator : Address F) (validity : Time)
    {blocks : List (HelloBlock F)} (now : Time) (h : r.isSelectedBy blocks = true) :
    (r.recordSelector originator validity blocks now).tables.selectors.get? originator =
      some ⟨originator, now + validity⟩ := by
  rw [recordSelector, if_pos h]
  split
  · rename_i t ht
    obtain ⟨main, time⟩ := t
    obtain rfl : main = originator := (Table.get?_eq_some_iff.mp ht).2
    exact (Table.get?_insert ..).trans (if_pos rfl)
  · rw [tables_onStore_insert]
    exact (Table.get?_insert ..).trans (if_pos rfl)

/-- Whatever a HELLO finds, it leaves behind what it says. -/
theorem processHello_heeds (r : Router F) (originator : Address F) (validity : Time) (w : Willingness)
    (blocks : List (HelloBlock F)) (receiver sender : Address F) (now : Time) :
    Heeds now originator validity w blocks receiver sender
      (r.processHello originator validity w blocks receiver sender now) := by
  have hrelays :
      (r.processHello originator validity w blocks receiver sender now).RelaysCurrent :=
    processHello_relaysCurrent ..
  unfold processHello at hrelays ⊢
  dsimp only at hrelays ⊢
  let r₁ := r.senseHello validity w blocks receiver sender now
  let r₂ := r₁.recordWillingness originator w
  let r₃ := r₂.recordTwoHops originator validity blocks now
  let r₄ := r₃.updateRelays
  let r₅ := r₄.recordSelector originator validity blocks now
  have hd₂ : Does [.neighbours] now r₁ r₂ := recordWillingness_does ..
  have hd₃ : Does [.journal, .stored .twoHop, .refreshed .twoHop, .dropped .twoHop] now r₂ r₃ :=
    recordTwoHops_does ..
  have hd₄ : Does [.journal, .relays] now r₃ r₄ := updateRelays_does _
  have hd₅ : Does [.journal, .stored .selector, .refreshed .selector] now r₄ r₅ :=
    recordSelector_does ..
  have hview₅ : SameView r₃ r₅ := (SameView.of_does hd₄ (by decide)).trans (.of_does hd₅ (by decide))
  have hview : SameView r₂ r₅ := (SameView.of_does hd₃ (by decide)).trans hview₅
  obtain ⟨table, hwilling⟩ := r₁.recordWillingness_eq originator w
  have hlinks : r₂.tables.links = r₁.tables.links := congrArg (·.tables.links) hwilling
  have hassociations : r₂.tables.associations = r₁.tables.associations :=
    congrArg (·.tables.associations) hwilling
  have hsensed : Sensed now validity w blocks receiver sender r₅ := by
    refine Sensed.congr (r := r₁) (senseHello_sensed ..) (hview.node.params.trans hd₂.sameNode.params)
      (hview.links.trans hlinks) (hview.associations.trans hassociations) fun n hn hw => ?_
    rw [hview.neighbours, recordWillingness_get?, hn]
    split
    · rw [Option.map_some, ← hw]
    · rfl
  refine ⟨hsensed, fun n hn => ?_, fun hears key => ?_, hrelays, fun hselected => ?_⟩
  · rw [hview.neighbours, recordWillingness_get?, if_pos rfl] at hn
    obtain ⟨n', -, rfl⟩ := Option.map_eq_some_iff.mp hn
    rfl
  · rw [hearsNode_congr hview.links hview.associations] at hears
    have htwoHops : r₅.tables.twoHops = r₃.tables.twoHops :=
      (hd₅.twoHops_eq (by decide)).trans (hd₄.twoHops_eq (by decide))
    have hget := recordTwoHops_get? r₂ originator validity blocks now hears key
    rw [htwoHops, hview.heldTwoHop_eq, hget,
      IsSettling.foldl_foldl (heldTwoHop_isSettling r₂ originator (now + validity) key)]
  · have hsame : r₅.isSelectedBy blocks = r₄.isSelectedBy blocks :=
      isSelectedBy_congr hd₅.sameNode.address (hd₅.links_eq (by decide)).2.2 blocks
    exact recordSelector_get? r₄ originator validity now (hsame ▸ hselected)

/-! ## Packets -/

/-- A HELLO is taken in unless no hop is left to it, it comes from this node or it was seen before. -/
theorem handleMessage_hello_eq (r : Router F) (receiver sender : Address F) (now : Time)
    {m : Message F} {interval : TimeCode} (hm : m.body = .hello interval w blocks) :
    handleMessage receiver sender now r m =
      if m.ttl = 0 ∨ r.isLocal m.originator = true then r
      else if (r.tables.duplicates.get? (m.originator, m.seqno)).isSome = true then r
      else r.processHello m.originator m.validity.duration w blocks receiver sender now := by
  unfold handleMessage process
  rw [hm]
  split
  · rfl
  · cases r.tables.duplicates.get? (m.originator, m.seqno) with
    | some t => exact if_pos (.inr rfl)
    | none => rfl

/-- A HELLO that comes again leaves the tables alone, wherever the message went in between. -/
theorem handleMessage_hello_twice (r : Router F) (receiver sender : Address F) (now : Time)
    {m : Message F} (hm : m.body.isHello = true)
    (hn : SameNode (handleMessage receiver sender now r m) r')
    (ht : r'.tables = (handleMessage receiver sender now r m).tables) :
    (handleMessage receiver sender now r' m).tables = r'.tables := by
  cases hbody : m.body with
  | tc | mid | unknown =>
    rw [hbody] at hm
    cases hm
  | hello interval w blocks =>
    have hd : Does reception now r (handleMessage receiver sender now r m) := handleMessage_does ..
    rw [handleMessage_hello_eq r' _ _ _ hbody, (hd.sameNode.trans hn).isLocal_eq]
    rw [handleMessage_hello_eq r _ _ _ hbody] at hn ht
    split
    · rfl
    · rename_i hforeign
      rw [if_neg hforeign] at hn ht
      split
      · rfl
      · rename_i hunseen
        split at ht
        · rename_i hseen
          exact absurd (ht ▸ hseen) hunseen
        · rename_i hnew
          rw [if_neg hnew] at hn
          exact ((processHello_heeds ..).congr hn ht).processHello_tables

/-- A packet with one HELLO that is taken in twice at one clock reading leaves the tables and the
routes as it left them the first time. -/
theorem handlePacket_hello_twice {id : InterfaceId} {datagram : Octets} {p : Packet F}
    {m : Message F} (hr : r.running = true) (hid : r.interfaceAddress? id = some receiver)
    (hp : Packet.decode datagram = .ok p) (hms : p.messages = [m]) (hm : m.body.isHello = true) :
    ∃ r' r'', r.handlePacket id sender datagram now = .ok r' ∧
      r'.handlePacket id sender datagram now = .ok r'' ∧
      r''.tables = r'.tables ∧ r''.routes = r'.routes := by
  have htakes {r : Router F} (hr : r.running = true) (hid : r.interfaceAddress? id = some receiver) :
      r.handlePacket id sender datagram now =
        .ok ((handleMessage receiver sender now
          (r.note (.packetReceived p.seqno p.messages.length sender)) m).updateRoutes now) := by
    rw [handlePacket_of_decode hr hid hp, hms]
    rfl
  let first := handleMessage receiver sender now
    (r.note (.packetReceived p.seqno p.messages.length sender)) m
  let r' := first.updateRoutes now
  let second := handleMessage receiver sender now
    (r'.note (.packetReceived p.seqno p.messages.length sender)) m
  have hd : Does reception now r r' :=
    (((Does.nothing r).note _ (by decide)).trans (handleMessage_does _ m receiver sender)).routes
      (by decide)
  have hd' : Does reception now r' (second.updateRoutes now) :=
    (((Does.nothing r').note _ (by decide)).trans (handleMessage_does _ m receiver sender)).routes
      (by decide)
  have hid' : r'.interfaceAddress? id = some receiver := by
    rw [interfaceAddress?, hd.sameNode.interfaces]
    exact hid
  have hbetween : Does [.journal, .routes] now first
      (r'.note (.packetReceived p.seqno p.messages.length sender)) :=
    ((Does.nothing first).routes (by decide)).note _ (by decide)
  have htables : second.tables = r'.tables :=
    handleMessage_hello_twice _ receiver sender now hm hbetween.sameNode
      (first.updateRoutes_tables now)
  have htables' : (second.updateRoutes now).tables = r'.tables :=
    (second.updateRoutes_tables now).trans htables
  refine ⟨r', second.updateRoutes now, htakes hr hid, htakes (hd.sameNode.running.trans hr) hid',
    htables', ?_⟩
  calc (second.updateRoutes now).routes
      = RouteTable.compute (second.updateRoutes now).tables (second.updateRoutes now).localAddresses
          now := updateRoutes_routesCurrent second now
    _ = RouteTable.compute r'.tables r'.localAddresses now := by
          rw [htables', hd'.sameNode.localAddresses_eq]
    _ = r'.routes := (updateRoutes_routesCurrent first now).symm

/-- A HELLO of the neighbour 10.0.0.2 that selects the node as relay over a symmetric link, and then
calls the link lost. It says of 10.0.0.3 that it is a neighbour, and then that it is none. -/
def contradictoryHello : Message .ipv4 where
  validity := ⟨0x8a⟩
  originator := .ofNat 0x0a000002
  ttl := 1
  hops := 0
  seqno := 2
  body := .hello ⟨5⟩ .standard
    [⟨⟨.symmetric, .mpr, LinkCode.consistent_mpr _⟩, [sampleAddress, .ofNat 0x0a000003]⟩,
      ⟨⟨.lost, .notNeighbour, LinkCode.consistent_lost _⟩, [sampleAddress, .ofNat 0x0a000003]⟩]

/-- The packet that it comes in. -/
def contradictoryDatagram : Octets :=
  [0, 44, 0, 1, 1, 0x8a, 0, 40, 10, 0, 0, 2, 1, 0, 0, 2, 0, 0, 5, 3, 10, 0, 0, 12, 10, 0, 0, 1,
    10, 0, 0, 3, 3, 0, 0, 12, 10, 0, 0, 1, 10, 0, 0, 3]

theorem handlePacket_hello_twice_contradictory :
    sample.running = true ∧ sample.interfaceAddress? (.number 0) = some sampleAddress ∧
      Packet.decode contradictoryDatagram = .ok ⟨1, [contradictoryHello]⟩ ∧
      ∃ r' r'', sample.handlePacket (.number 0) (.ofNat 0x0a000002) contradictoryDatagram 1 = .ok r' ∧
        r'.handlePacket (.number 0) (.ofNat 0x0a000002) contradictoryDatagram 1 = .ok r'' ∧
        r''.tables = r'.tables ∧ r''.routes = r'.routes := by
  have hr : sample.running = true := by decide +kernel
  have hid : sample.interfaceAddress? (.number 0) = some sampleAddress := by decide +kernel
  have hp : Packet.decode contradictoryDatagram = .ok ⟨1, [contradictoryHello]⟩ :=
    Packet.decode_eq_ok_of_toOption (by decide +kernel)
  exact ⟨hr, hid, hp, handlePacket_hello_twice hr hid hp rfl rfl⟩

end Router

end Manet
