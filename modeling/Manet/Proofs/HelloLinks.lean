import Manet.Proofs.LinkTimes
import Manet.Proofs.PacketSizes
import Manet.Proofs.RelayCover

/-!
# The links in a HELLO

A HELLO sorts the live links of its sender by link code (`helloBlocks_sorts`). A link has a code if the node
behind it is a relay, or a stored neighbour that the state of the link goes with (`linkCodeOf?_isSome_iff`).
So a HELLO leaves out symmetric links to neighbours that are not stored as symmetric, and lists links to
relays that are no neighbours any more; but for these it lists the live links to stored neighbours
(`hello_lists_iff`). There are neither in runs in which interfaces keep their owners and nothing is
overlooked.
-/

namespace Manet

variable {F : Family}

theorem LinkCode.of?_eq_some_iff {link : LinkType} {neighbour : NeighbourType} {c : LinkCode} :
    LinkCode.of? link neighbour = some c ↔ link = c.link ∧ neighbour = c.neighbour := by
  unfold LinkCode.of?
  split
  · rw [Option.some.injEq]
    constructor
    · rintro rfl
      exact ⟨rfl, rfl⟩
    · rintro ⟨rfl, rfl⟩
      rfl
  · rename_i hne
    refine iff_of_false (Option.some_ne_none c).symm ?_
    rintro ⟨rfl, rfl⟩
    exact hne c.consistent

theorem LinkCode.of?_eq_none_iff {link : LinkType} {neighbour : NeighbourType} :
    LinkCode.of? link neighbour = none ↔ link = .symmetric ∧ neighbour = .notNeighbour := by
  unfold LinkCode.of?
  split
  · rename_i h
    exact iff_of_false (Option.some_ne_none _) fun hboth => h hboth.1 hboth.2
  · rename_i h
    exact iff_of_true rfl (by simpa only [Classical.not_imp, ne_eq, Classical.not_not] using h)

namespace Router

variable {now : Time} {r : Router F} {l : LinkTuple F}

/-! ## Blocks -/

/-- The addresses in the block of a code. -/
def addressesUnder (blocks : List (HelloBlock F)) (c : LinkCode) : List (Address F) :=
  ((blocks.find? fun b => b.code = c).map (·.addresses)).getD []

theorem addressesUnder_cons (b : HelloBlock F) (bs : List (HelloBlock F)) (c : LinkCode) :
    addressesUnder (b :: bs) c = if b.code = c then b.addresses else addressesUnder bs c := by
  unfold addressesUnder
  by_cases h : b.code = c <;> simp [h]

theorem addressesUnder_addToBlock (code c : LinkCode) (a : Address F) (bs : List (HelloBlock F)) :
    addressesUnder (addToBlock code a bs) c =
      if code = c then addressesUnder bs c ++ [a] else addressesUnder bs c := by
  induction bs with
  | nil => exact addressesUnder_cons ⟨code, [a]⟩ [] c
  | cons b bs ih =>
    unfold addToBlock
    by_cases hcode : b.code = code
    · subst hcode
      rw [if_pos rfl, addressesUnder_cons, addressesUnder_cons]
      split <;> rfl
    · rw [if_neg hcode, addressesUnder_cons, addressesUnder_cons, ih]
      split
      · rename_i hb
        rw [if_neg fun hc => hcode (hb.trans hc.symm)]
      · rfl

theorem addressesUnder_foldl (code? : LinkTuple F → Option LinkCode) (ls : List (LinkTuple F))
    (bs : List (HelloBlock F)) (c : LinkCode) :
    addressesUnder (ls.foldl (fun bs l =>
        match code? l with
        | some code => addToBlock code l.neighbour bs
        | none => bs) bs) c =
      addressesUnder bs c ++ (ls.filter fun l => code? l = some c).map (·.neighbour) := by
  induction ls generalizing bs with
  | nil => simp
  | cons l ls ih =>
    rw [List.foldl_cons, ih]
    cases hcode : code? l with
    | none => simp [hcode]
    | some code =>
      by_cases h : code = c <;> simp [hcode, addressesUnder_addToBlock, h]

/-- A block is found by its code. -/
theorem addressesUnder_of_mem {blocks : List (HelloBlock F)} (h : (blocks.map (·.code)).Nodup)
    {b : HelloBlock F} (hb : b ∈ blocks) : addressesUnder blocks b.code = b.addresses := by
  induction blocks with
  | nil => cases hb
  | cons b' blocks ih =>
    rw [List.map_cons, List.nodup_cons] at h
    rw [addressesUnder_cons]
    rcases List.mem_cons.mp hb with rfl | hb
    · exact if_pos rfl
    · have hne : b'.code ≠ b.code := fun he => h.1 (he ▸ List.mem_map_of_mem hb)
      rw [if_neg hne, ih h.2 hb]

theorem perm_addToBlock (code : LinkCode) (a : Address F) (bs : List (HelloBlock F)) :
    ((addToBlock code a bs).flatMap (·.addresses)).Perm (a :: bs.flatMap (·.addresses)) := by
  induction bs with
  | nil => exact .refl _
  | cons b bs ih =>
    unfold addToBlock
    split
    · rw [List.flatMap_cons, List.flatMap_cons, List.append_assoc]
      exact List.perm_middle
    · rw [List.flatMap_cons, List.flatMap_cons]
      exact (ih.append_left _).trans List.perm_middle

theorem perm_foldl (code? : LinkTuple F → Option LinkCode) (ls : List (LinkTuple F))
    (bs : List (HelloBlock F)) :
    ((ls.foldl (fun bs l =>
        match code? l with
        | some code => addToBlock code l.neighbour bs
        | none => bs) bs).flatMap (·.addresses)).Perm
      ((ls.filter fun l => (code? l).isSome).map (·.neighbour) ++ bs.flatMap (·.addresses)) := by
  induction ls generalizing bs with
  | nil => exact .refl _
  | cons l ls ih =>
    rw [List.foldl_cons]
    refine (ih _).trans ?_
    cases hcode : code? l with
    | none => simp [hcode]
    | some code =>
      rw [List.filter_cons_of_pos (by rw [hcode]; rfl), List.map_cons, List.cons_append]
      exact ((perm_addToBlock code l.neighbour bs).append_left _).trans List.perm_middle

/-! ## Link codes -/

theorem neighbourTypeOf?_eq_mpr_iff {main : Address F} :
    r.neighbourTypeOf? main = some .mpr ↔ r.tables.mprs.contains main = true := by
  unfold neighbourTypeOf?
  split
  · rename_i h
    exact iff_of_true rfl h
  · rename_i h
    refine iff_of_false (fun he => ?_) h
    obtain ⟨n, -, hn⟩ := Option.map_eq_some_iff.mp he
    split at hn <;> cases hn

theorem neighbourTypeOf?_isSome_iff {main : Address F} : (r.neighbourTypeOf? main).isSome = true ↔
    r.tables.mprs.contains main = true ∨ r.tables.neighbours.contains main = true := by
  unfold neighbourTypeOf?
  split
  · rename_i h
    exact iff_of_true rfl (.inl h)
  · rename_i h
    rw [Option.isSome_map, Table.contains_eq_isSome r.tables.neighbours, or_iff_right h]

theorem linkCodeOf?_eq_some_iff {c : LinkCode} : r.linkCodeOf? l now = some c ↔
    r.linkTypeOf l now = c.link ∧ r.neighbourTypeOf? (r.mainAddress l.neighbour) = some c.neighbour := by
  rw [linkCodeOf?, Option.bind_eq_some_iff]
  simp only [LinkCode.of?_eq_some_iff]
  constructor
  · rintro ⟨type, htype, hlink, rfl⟩
    exact ⟨hlink, htype⟩
  · rintro ⟨hlink, htype⟩
    exact ⟨_, htype, hlink, rfl⟩

/-- The links that are alive. -/
def liveLinks (r : Router F) (now : Time) : List (LinkTuple F) :=
  r.tables.links.toList.filter (·.isAlive now)

/-- The links that are alive and end at stored neighbours. -/
def namedLinks (r : Router F) (now : Time) : List (LinkTuple F) :=
  (r.liveLinks now).filter fun l => r.tables.neighbours.contains (r.mainAddress l.neighbour)

/-- The link is symmetric, and the node behind it is stored as a neighbour that is not. -/
def IsMute (r : Router F) (now : Time) (l : LinkTuple F) : Prop :=
  r.linkTypeOf l now = .symmetric ∧ r.neighbourTypeOf? (r.mainAddress l.neighbour) = some .notNeighbour

/-- The node behind the link is a relay, and no neighbour any more. -/
def IsPhantom (r : Router F) (l : LinkTuple F) : Prop :=
  r.tables.mprs.contains (r.mainAddress l.neighbour) = true ∧
    r.tables.neighbours.contains (r.mainAddress l.neighbour) = false

instance (r : Router F) (now : Time) (l : LinkTuple F) : Decidable (r.IsMute now l) :=
  inferInstanceAs (Decidable (_ ∧ _))

instance (r : Router F) (l : LinkTuple F) : Decidable (r.IsPhantom l) :=
  inferInstanceAs (Decidable (_ ∧ _))

/-- A link has a code iff the type of the node behind it is known and goes with the state of the link. -/
theorem linkCodeOf?_isSome_iff : (r.linkCodeOf? l now).isSome = true ↔
    (r.neighbourTypeOf? (r.mainAddress l.neighbour)).isSome = true ∧ ¬ r.IsMute now l := by
  unfold linkCodeOf? IsMute
  cases r.neighbourTypeOf? (r.mainAddress l.neighbour) with
  | none => simp
  | some type =>
    rw [Option.bind_some, Option.isSome_iff_ne_none, ne_eq, LinkCode.of?_eq_none_iff, Option.some.injEq]
    simp

/-- The links with a code are those to stored neighbours, apart from those that are mute and those that are
phantoms. -/
theorem linkCodeOf?_isSome_eq_iff (r : Router F) (now : Time) (l : LinkTuple F) :
    (r.linkCodeOf? l now).isSome = r.tables.neighbours.contains (r.mainAddress l.neighbour) ↔
      ¬ r.IsMute now l ∧ ¬ r.IsPhantom l := by
  rw [Bool.eq_iff_iff, linkCodeOf?_isSome_iff, neighbourTypeOf?_isSome_iff, IsPhantom]
  have hmute : r.IsMute now l → r.tables.neighbours.contains (r.mainAddress l.neighbour) = true := by
    rintro ⟨-, htype⟩
    refine (neighbourTypeOf?_isSome_iff.mp (Option.isSome_of_eq_some htype)).resolve_left fun hmpr => ?_
    rw [neighbourTypeOf?_eq_mpr_iff.mpr hmpr] at htype
    cases htype
  cases hstored : r.tables.neighbours.contains (r.mainAddress l.neighbour) with
  | true => simp
  | false =>
    have hnot : ¬ r.IsMute now l := fun h => Bool.false_ne_true (hstored.symm.trans (hmute h))
    simp [hnot]

/-! ## What a HELLO lists -/

/-- Blocks sort live links: each block holds the links of its code, in the order of the table, no block is
empty and no two have the same code. Listed are the links to relays and to stored neighbours that are not
mute, and relays as such. -/
structure Sorts (r : Router F) (now : Time) (blocks : List (HelloBlock F)) : Prop where
  nonempty : ∀ b ∈ blocks, b.addresses ≠ []
  nodup : (blocks.map (·.code)).Nodup
  addresses : ∀ b ∈ blocks, b.addresses =
    ((r.liveLinks now).filter fun l => r.linkTypeOf l now = b.code.link ∧
      r.neighbourTypeOf? (r.mainAddress l.neighbour) = some b.code.neighbour).map (·.neighbour)
  relays : ∀ b ∈ blocks, ∀ a ∈ b.addresses,
    b.code.neighbour = .mpr ↔ r.tables.mprs.contains (r.mainAddress a) = true
  listed : (blocks.flatMap (·.addresses)).Perm (((r.liveLinks now).filter fun l =>
    (r.tables.mprs.contains (r.mainAddress l.neighbour) ∨
      r.tables.neighbours.contains (r.mainAddress l.neighbour)) ∧ ¬ r.IsMute now l).map (·.neighbour))

theorem helloBlocks_addresses (r : Router F) (now : Time) {b : HelloBlock F} (hb : b ∈ r.helloBlocks now) :
    b.addresses = ((r.liveLinks now).filter fun l => r.linkTypeOf l now = b.code.link ∧
      r.neighbourTypeOf? (r.mainAddress l.neighbour) = some b.code.neighbour).map (·.neighbour) := by
  have hfold := addressesUnder_foldl (fun l => r.linkCodeOf? l now) (r.liveLinks now) [] b.code
  rw [← addressesUnder_of_mem (r.lays_helloBlocks now).nodup hb]
  refine hfold.trans ((List.nil_append _).trans (congrArg (List.map _) (List.filter_congr fun l _ => ?_)))
  exact decide_eq_decide.mpr linkCodeOf?_eq_some_iff

/-- Every live link with a code is listed once. -/
theorem helloBlocks_perm (r : Router F) (now : Time) : ((r.helloBlocks now).flatMap (·.addresses)).Perm
    (((r.liveLinks now).filter fun l => (r.linkCodeOf? l now).isSome).map (·.neighbour)) := by
  have hfold := perm_foldl (fun l => r.linkCodeOf? l now) (r.liveLinks now) []
  rw [List.flatMap_nil, List.append_nil] at hfold
  exact hfold

theorem helloBlocks_sorts (r : Router F) (now : Time) : r.Sorts now (r.helloBlocks now) where
  nonempty b hb hnil := by
    obtain ⟨l, hl, hcode⟩ := List.mem_filterMap.mp
      (((r.lays_helloBlocks now).mem_iff b.code).mp (List.mem_map_of_mem hb))
    have hmem : l.neighbour ∈ b.addresses := by
      rw [r.helloBlocks_addresses now hb]
      exact List.mem_map_of_mem (List.mem_filter.mpr ⟨hl, decide_eq_true (linkCodeOf?_eq_some_iff.mp hcode)⟩)
    rw [hnil] at hmem
    cases hmem
  nodup := (r.lays_helloBlocks now).nodup
  addresses b hb := r.helloBlocks_addresses now hb
  relays b hb a ha := by
    rw [r.helloBlocks_addresses now hb] at ha
    obtain ⟨l, hl, rfl⟩ := List.mem_map.mp ha
    obtain ⟨-, htype⟩ := of_decide_eq_true (List.mem_filter.mp hl).2
    rw [← neighbourTypeOf?_eq_mpr_iff, htype, Option.some.injEq]
  listed := by
    refine (r.helloBlocks_perm now).trans (.of_eq (congrArg _ (List.filter_congr fun l _ => ?_)))
    rw [Bool.eq_iff_iff, linkCodeOf?_isSome_iff, neighbourTypeOf?_isSome_iff, decide_eq_true_iff]

/-- Of the links that are kept by `p` and those whose images satisfy `s`, there are the same images iff they
are the same links. -/
theorem perm_map_filter_iff {α β : Type} {f : α → β} {s : β → Bool} {p : α → Bool} {ls : List α} :
    ((ls.filter p).map f).Perm ((ls.filter fun x => s (f x)).map f) ↔ ∀ x ∈ ls, p x = s (f x) := by
  constructor
  · intro h
    have hsub : ∀ x ∈ ls, p x = true → s (f x) = true := by
      intro x hx hp
      obtain ⟨y, hy, hxy⟩ := List.mem_map.mp
        (h.mem_iff.mp (List.mem_map_of_mem (List.mem_filter.mpr ⟨hx, hp⟩)))
      exact hxy ▸ (List.mem_filter.mp hy).2
    have hboth : (ls.filter fun x => s (f x)).filter p = ls.filter p := by
      rw [List.filter_filter]
      refine List.filter_congr fun x hx => ?_
      cases hp : p x with
      | false => rfl
      | true => rw [hsub x hx hp, Bool.and_self]
    have hall : ∀ x ∈ ls.filter fun x => s (f x), p x = true := by
      rw [← List.length_filter_eq_length_iff, hboth]
      simpa only [List.length_map] using h.length_eq
    intro x hx
    exact Bool.eq_iff_iff.mpr ⟨hsub x hx, fun hs => hall x (List.mem_filter.mpr ⟨hx, hs⟩)⟩
  · intro h
    rw [List.filter_congr h]

/-- A HELLO lists the live links to stored neighbours iff none of the live links is mute or a phantom. -/
theorem perm_helloBlocks_iff (r : Router F) (now : Time) :
    ((r.helloBlocks now).flatMap (·.addresses)).Perm ((r.namedLinks now).map (·.neighbour)) ↔
      ∀ l ∈ r.liveLinks now, ¬ r.IsMute now l ∧ ¬ r.IsPhantom l := by
  rw [(r.helloBlocks_perm now).congr_left]
  refine (perm_map_filter_iff (s := fun a => r.tables.neighbours.contains (r.mainAddress a))).trans ?_
  exact forall₂_congr fun l _ => linkCodeOf?_isSome_eq_iff r now l

/-! ## Runs -/

/-- A link that is mute is idle: the link layer does not call it lost if nobody listens to it. -/
theorem IsMute.isIdle {t : Time} (h : r.Reachable t) (hl : l ∈ r.tables.links) (hm : r.IsMute now l) :
    r.tables.IsIdle now l := by
  obtain ⟨hlink, htype⟩ := hm
  unfold linkTypeOf at hlink
  split at hlink
  · cases hlink
  · rename_i hnot
    split at hlink
    · rename_i hsym
      refine ⟨hl, hsym, Bool.eq_false_iff.mpr fun hlost => ?_, ?_⟩
      · have hoff : r.params.useLinkLayerFeedback = false := Bool.eq_false_iff.mpr fun hf => hnot ⟨hf, hlost⟩
        rw [LinkTuple.isLost, h.lostTime_eq_none hoff l hl] at hlost
        cases hlost
      · unfold neighbourTypeOf? at htype
        split at htype
        · cases htype
        · obtain ⟨n, hn, htype⟩ := Option.map_eq_some_iff.mp htype
          have hn : r.tables.neighbours.get? (r.tables.mainAddress l.neighbour) = some n := hn
          rw [RouteTable.isSymmetricNeighbour, hn, Option.any_some]
          split at htype
          · cases htype
          · rename_i hsymmetric
            exact Bool.eq_false_iff.mpr hsymmetric
    · split at hlink <;> cases hlink

/-- Relays that are current are neighbours. -/
theorem RelaysCurrent.not_isPhantom (h : r.RelaysCurrent) : ¬ r.IsPhantom l := by
  rintro ⟨hmpr, hstored⟩
  rw [h] at hmpr
  obtain ⟨n, hn, -⟩ := RelaySelection.isWilling_of_contains_selectRelays hmpr
  rw [Table.contains_eq_isSome] at hstored
  exact Bool.false_ne_true (hstored.symm.trans (Option.isSome_of_eq_some hn))

theorem ReachableBy.diligent {t : Time} (h : r.ReachableBy (fun now r op => ¬ r.Overlooks now op) t) :
    r.Diligent t := by
  induction h with
  | create address params entropy => exact .create address params entropy
  | apply op _ ht hop ih => exact .apply op ih ht hop

/-- The HELLO that the timer lets wait sorts the live links by code, relays as such. It lists the live links
to stored neighbours, each once and no others, iff none of the live links is mute or a phantom. Mute links
are idle, and there are phantoms only where the relays are out of date; so in runs of orderly operations
that overlook nothing, it lists just the live links to stored neighbours. -/
theorem hello_lists_iff {t : Time} (h : r.Reachable t) (hr : r.running = true) (now : Time) :
    ∃ m interval blocks, Operation.queued now r (.timer .hello) = [m] ∧
      m.body = .hello interval r.params.willingness blocks ∧
      r.Sorts now blocks ∧
      ((blocks.flatMap (·.addresses)).Perm ((r.namedLinks now).map (·.neighbour)) ↔
        ∀ l ∈ r.liveLinks now, ¬ r.IsMute now l ∧ ¬ r.IsPhantom l) ∧
      (∀ l ∈ r.liveLinks now, r.IsMute now l → r.tables.IsIdle now l) ∧
      (∀ l, r.IsPhantom l → ¬ r.RelaysCurrent) ∧
      (r.ReachableBy (fun now r op => op.IsOrderly now r ∧ ¬ r.Overlooks now op) t → t ≤ now →
        (∀ l ∈ r.tables.links, l.outlivesLoss now = false) →
        (blocks.flatMap (·.addresses)).Perm ((r.namedLinks now).map (·.neighbour))) := by
  have hidle (l : LinkTuple F) (hl : l ∈ r.liveLinks now) (hm : r.IsMute now l) : r.tables.IsIdle now l :=
    hm.isIdle h (List.mem_filter.mp hl).1
  have hlag (l : LinkTuple F) (hp : r.IsPhantom l) : ¬ r.RelaysCurrent := fun hc => hc.not_isPhantom hp
  refine ⟨r.composedHello now, _, r.helloBlocks now, queued_hello hr now, rfl, r.helloBlocks_sorts now,
    r.perm_helloBlocks_iff now, hidle, hlag, fun hby ht hlosses => ?_⟩
  refine (r.perm_helloBlocks_iff now).mpr fun l hl => ⟨fun hm => ?_, fun hp => ?_⟩
  · have horderly := hby.mono fun now r op hop => hop.1
    obtain hbefore | hover := (hidle l hl hm).earlier ht
    · exact horderly.not_isIdle l hbefore
    · exact Bool.false_ne_true ((hlosses l (hidle l hl hm).mem).symm.trans hover)
  · exact hlag l hp (hby.mono fun now r op hop => hop.2).diligent.relaysCurrent.1

/-! The small run lists its link. A node that 10.0.0.9 does not hear learns that its symmetric neighbour
10.0.0.2 is an interface of 10.0.0.9, and leaves the symmetric link out. -/

/-- A HELLO of 10.0.0.9, which lists nobody. -/
def emptyHello : Octets := [0, 20, 0, 0, 1, 0x86, 0, 16, 10, 0, 0, 9, 1, 0, 0, 0, 0, 0, 5, 3]

/-- The node after both HELLO messages of 10.0.0.9, and its MID. -/
def muted : Router .ipv4 :=
  ((((create sampleAddress {} (.cycle #[])).apply 0 sampleStart).apply 0
    (.packet (.number 0) (.ofNat 0x0a000009) emptyHello)).apply 0
    (.packet (.number 0) (.ofNat 0x0a000002) secondaryHello)).apply 0
    (.packet (.number 0) (.ofNat 0x0a000002) secondaryMid)

theorem muted_reachable : muted.Reachable 0 :=
  .apply _ (.apply _ (.apply _ (.apply _ (.create _ _ _) (Nat.le_refl 0)) (Nat.le_refl 0)) (Nat.le_refl 0))
    (Nat.le_refl 0)

theorem sample_attentive :
    sample.ReachableBy (fun now r op => op.IsOrderly now r ∧ ¬ r.Overlooks now op) 0 :=
  .apply _ (.apply _ (.create _ _ _) (Nat.le_refl 0) (by decide +kernel)) (Nat.le_refl 0) (by decide +kernel)

theorem hello_lists_iff_samples :
    (∃ m interval blocks, Operation.queued 0 sample (.timer .hello) = [m] ∧
      m.body = .hello interval sample.params.willingness blocks ∧
      (blocks.flatMap (·.addresses)).Perm [.ofNat 0x0a000002]) ∧
    (muted.namedLinks 0).map (·.neighbour) = [.ofNat 0x0a000002, .ofNat 0x0a000009] ∧
    ∃ m interval blocks, Operation.queued 0 muted (.timer .hello) = [m] ∧
      m.body = .hello interval muted.params.willingness blocks ∧
      ¬ (blocks.flatMap (·.addresses)).Perm ((muted.namedLinks 0).map (·.neighbour)) := by
  obtain ⟨m, interval, blocks, hqueued, hbody, -, -, -, -, hlisted⟩ :=
    hello_lists_iff sample_reachable (by decide +kernel) 0
  obtain ⟨m', interval', blocks', hqueued', hbody', -, hiff, -⟩ :=
    hello_lists_iff muted_reachable (by decide +kernel) 0
  have hnamed : (sample.namedLinks 0).map (·.neighbour) = [.ofNat 0x0a000002] := by decide +kernel
  have hmute : ∃ l ∈ muted.liveLinks 0, muted.IsMute 0 l := by decide +kernel
  refine ⟨⟨m, interval, blocks, hqueued, hbody, ?_⟩, by decide +kernel, m', interval', blocks', hqueued',
    hbody', fun hperm => ?_⟩
  · exact hnamed ▸ hlisted sample_attentive (Nat.le_refl 0) (by decide +kernel)
  · obtain ⟨l, hl, hm⟩ := hmute
    exact (hiff.mp hperm l hl).1 hm

end Router

end Manet
