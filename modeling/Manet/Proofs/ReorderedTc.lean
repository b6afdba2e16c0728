import Mathlib.Data.List.Forall2
import Manet.Proofs.Flooding

/-!
# TC messages in any order

The network may deliver the TC messages of a node in any order. As long as the numbers of the sets
that they advertise lie within half a turn, a router ends up with the nodes that the TC messages of
the newest set advertise, whatever came first (`run_tcs`). Numbers are compared around a circle, but
within half a turn from a base they are ordered by their distance from it (`SeqNum.newer_iff`). The
invariant behind it is `Router.HasHeard`: the topology tuples are what the newest of the TC messages
so far advertise (`HasHeard.handleMessage`).
-/

namespace Manet

variable {F : Family}

/-! ## Numbers within half a turn -/

namespace SeqNum

/-- How far `s` is ahead of `base`, counted around the circle. -/
def since (base s : SeqNum) : Nat := (s - base).toNat

theorem since_add (base : SeqNum) {k : Nat} (h : k ≤ 32767) : since base (base + UInt16.ofNat k) = k := by
  rw [since, UInt16.add_comm, UInt16.add_sub_cancel]
  exact UInt16.toNat_ofNat_of_lt (Nat.lt_of_le_of_lt h (by decide))

theorem eq_of_since_eq {base s t : SeqNum} (h : since base s = since base t) : s = t :=
  (UInt16.sub_left_inj base).mp (UInt16.toNat_inj.mp h)

/-- Within half a turn from a base, the newer number is the one farther ahead. -/
theorem newer_iff {base s t : SeqNum} (hs : since base s ≤ 32767) (ht : since base t ≤ 32767) :
    newer s t = true ↔ since base t < since base s := by
  have hb := base.toNat_lt
  have hs' := s.toNat_lt
  have ht' := t.toNat_lt
  simp only [since, UInt16.toNat_sub] at hs ht ⊢
  rw [newer, decide_eq_true_eq, UInt16.lt_iff_toNat_lt, UInt16.lt_iff_toNat_lt]
  omega

end SeqNum

/-! ## What TC messages say -/

/-- The TC message advertises `dest` in the set with the number `ansn`. -/
def Message.Advertises (m : Message F) (ansn : SeqNum) (dest : Address F) : Prop :=
  ∃ neighbours, m.body = .tc ansn neighbours ∧ dest ∈ neighbours

theorem Message.advertises_iff {m : Message F} {ansn s : SeqNum} {neighbours : List (Address F)}
    {dest : Address F} (hm : m.body = .tc ansn neighbours) :
    m.Advertises s dest ↔ s = ansn ∧ dest ∈ neighbours := by
  constructor
  · rintro ⟨ns, hbody, hmem⟩
    obtain ⟨rfl, rfl⟩ := Body.tc.inj (hbody.symm.trans hm)
    exact ⟨rfl, hmem⟩
  · rintro ⟨rfl, hmem⟩
    exact ⟨neighbours, hm, hmem⟩

/-- Of the sets that the messages advertise, the one with the number `ansn` is farthest ahead of `base`,
and `dest` is in it. -/
def IsLatest (base : SeqNum) (ms : List (Message F)) (ansn : SeqNum) (dest : Address F) : Prop :=
  (∃ m ∈ ms, m.Advertises ansn dest) ∧
    ∀ m ∈ ms, ∀ ansn' dest', m.Advertises ansn' dest' → base.since ansn' ≤ base.since ansn

theorem IsLatest.congr {base : SeqNum} {ms ms' : List (Message F)} {ansn : SeqNum} {dest : Address F}
    (h : ∀ m, m ∈ ms ↔ m ∈ ms') : IsLatest base ms ansn dest ↔ IsLatest base ms' ansn dest := by
  simp only [IsLatest, h]

/-- Different TC messages of one originator, with a hop left to each, that advertise somebody in sets
with numbers within half a turn from `base`. -/
structure IsTcSeries (originator : Address F) (base : SeqNum) (ms : List (Message F)) : Prop where
  tc : ∀ m ∈ ms, m.originator = originator ∧ m.ttl ≠ 0 ∧
    ∃ k neighbours, k ≤ 32767 ∧ neighbours ≠ [] ∧ m.body = .tc (base + UInt16.ofNat k) neighbours
  distinct : (ms.map (·.seqno)).Nodup

theorem IsTcSeries.of_append {originator : Address F} {base : SeqNum} {ms ms' : List (Message F)}
    (h : IsTcSeries originator base (ms ++ ms')) : IsTcSeries originator base ms where
  tc m hm := h.tc m (List.mem_append_left _ hm)
  distinct := h.distinct.sublist ((List.sublist_append_left ms ms').map _)

/-- A message is told apart from those before it. -/
theorem IsTcSeries.key_notMem {originator : Address F} {base : SeqNum} {ms : List (Message F)}
    {m : Message F} (h : IsTcSeries originator base (ms ++ [m])) : m.key ∉ ms.map Message.key := by
  have hdistinct := h.distinct
  rw [List.map_append, List.nodup_append] at hdistinct
  intro hmem
  obtain ⟨m', hm', hkey⟩ := List.mem_map.mp hmem
  exact hdistinct.2.2 m'.seqno (List.mem_map_of_mem hm') m.seqno List.mem_cons_self
    (Prod.mk.inj hkey).2

theorem IsTcSeries.since_le {originator : Address F} {base : SeqNum} {ms : List (Message F)}
    (h : IsTcSeries originator base ms) {m : Message F} (hm : m ∈ ms) {s : SeqNum} {dest : Address F}
    (ha : m.Advertises s dest) : base.since s ≤ 32767 := by
  obtain ⟨-, -, k, neighbours, hk, -, hbody⟩ := h.tc m hm
  rw [((Message.advertises_iff hbody).mp ha).1, SeqNum.since_add base hk]
  exact hk

/-- The number of the set that the stored topology tuple comes from. -/
def Tables.listed (T : Tables F) (last dest : Address F) : Option SeqNum :=
  (T.topology.get? (dest, last)).map (·.seqno)

theorem Tables.listed_eq_some_iff {T : Tables F} {last dest : Address F} {ansn : SeqNum} :
    T.listed last dest = some ansn ↔
      ∃ t ∈ T.topology, t.last = last ∧ t.dest = dest ∧ t.seqno = ansn := by
  rw [listed, Option.map_eq_some_iff]
  constructor
  · rintro ⟨t, ht, hs⟩
    obtain ⟨hmem, hkey⟩ := Table.get?_eq_some_iff.mp ht
    obtain ⟨hd, hl⟩ := Prod.mk.inj hkey
    exact ⟨t, hmem, hl, hd, hs⟩
  · rintro ⟨t, hmem, hl, hd, hs⟩
    exact ⟨t, Table.get?_eq_some_iff.mpr ⟨hmem, Prod.ext hd hl⟩, hs⟩

namespace Router

variable {now validity : Time} {r r' : Router F} {originator receiver sender : Address F}
  {ansn : SeqNum} {neighbours : List (Address F)}

/-! ## Taking in a TC message -/

theorem mem_advertisedKeys {T : Tables F} {originator dest last : Address F} {p : TopologyTuple F → Bool} :
    .topology dest last ∈ advertisedKeys T originator p ↔
      ∃ t, T.topology.get? (dest, last) = some t ∧ last = originator ∧ p t = true := by
  simp only [advertisedKeys, List.mem_map, List.mem_filter, decide_eq_true_eq,
    Table.get?_eq_some_iff]
  constructor
  · rintro ⟨t, ⟨hmem, ho, hp⟩, hkey⟩
    obtain ⟨rfl, rfl⟩ := TupleKey.topology.inj hkey
    exact ⟨t, ⟨hmem, rfl⟩, ho, hp⟩
  · rintro ⟨t, ⟨hmem, hkey⟩, ho, hp⟩
    obtain ⟨rfl, rfl⟩ := Prod.mk.inj hkey
    exact ⟨t, ⟨hmem, ho, hp⟩, rfl⟩

theorem get?_eraseAdvertised (r : Router F) (originator : Address F) (p : TopologyTuple F → Bool)
    (dest last : Address F) :
    (r.onStore fun s => s.eraseAll (advertisedKeys s.tables originator p)).tables.topology.get?
        (dest, last) =
      (r.tables.topology.get? (dest, last)).filter fun t => !(last = originator ∧ p t) := by
  have hget := r.toStore.get?_eraseAll (advertisedKeys r.tables originator p) (.topology dest last)
  refine Option.map_injective (fun _ _ => TimedTuple.topology.inj) (hget.trans ?_)
  simp only [mem_advertisedKeys, Tables.get?]
  cases r.tables.topology.get? (dest, last) with
  | none => simp
  | some t => by_cases h : last = originator ∧ p t <;> simp [h, Option.filter]

theorem recordAdvertised_get? (r : Router F) (originator : Address F) (ansn : SeqNum)
    (validUntil now : Time) (a dest last : Address F) :
    (recordAdvertised originator ansn validUntil now r a).tables.topology.get? (dest, last) =
      if (a, originator) = (dest, last) then
        some ⟨a, originator, (r.tables.listed originator a).getD ansn, validUntil⟩
      else r.tables.topology.get? (dest, last) := by
  unfold recordAdvertised Tables.listed
  cases ht : r.tables.topology.get? (a, originator) with
  | none =>
    rw [tables_onStore_insert]
    exact Table.get?_insert ..
  | some t =>
    obtain ⟨ha, ho⟩ := Prod.mk.inj (Table.get?_eq_some_iff.mp ht).2
    rw [← ha, ← ho]
    exact Table.get?_insert ..

/-- What is recorded of one originator says nothing of another. -/
theorem foldl_recordAdvertised_get? (ansn : SeqNum) (validUntil now : Time) {last : Address F}
    (hl : last ≠ originator) (neighbours : List (Address F)) (r : Router F) (dest : Address F) :
    (neighbours.foldl (recordAdvertised originator ansn validUntil now) r).tables.topology.get?
      (dest, last) = r.tables.topology.get? (dest, last) := by
  refine List.foldlRecOn (motive := fun r' : Router F =>
    r'.tables.topology.get? (dest, last) = r.tables.topology.get? (dest, last)) _ _ rfl
    fun r' hr a _ => ?_
  rw [recordAdvertised_get?, if_neg fun h => hl (Prod.mk.inj h).2.symm, hr]

/-- What is advertised is listed, under the number that it is listed under already if there is one. -/
theorem foldl_recordAdvertised_listed (ansn : SeqNum) (validUntil now : Time)
    (neighbours : List (Address F)) (r : Router F) (dest : Address F) :
    (neighbours.foldl (recordAdvertised originator ansn validUntil now) r).tables.listed
        originator dest =
      if dest ∈ neighbours then some ((r.tables.listed originator dest).getD ansn)
      else r.tables.listed originator dest := by
  induction neighbours generalizing r with
  | nil => rfl
  | cons a neighbours ih =>
    have hone : (recordAdvertised originator ansn validUntil now r a).tables.listed originator dest =
        if dest = a then some ((r.tables.listed originator dest).getD ansn)
        else r.tables.listed originator dest := by
      rw [Tables.listed, recordAdvertised_get?]
      by_cases ha : dest = a
      · rw [if_pos ha, if_pos (by rw [ha]), ha]
        rfl
      · rw [if_neg ha, if_neg fun h => ha (Prod.mk.inj h).1.symm]
        rfl
    rw [List.foldl_cons, ih, hone]
    by_cases ha : dest = a <;> by_cases hmem : dest ∈ neighbours <;> simp [ha, hmem]

/-- A stored set of the originator is newer than the one with the number `ansn`. -/
def IsOutdated (r : Router F) (originator : Address F) (ansn : SeqNum) : Prop :=
  ∃ dest s, r.tables.listed originator dest = some s ∧ SeqNum.newer s ansn = true

theorem isOutdated_iff {r : Router F} {originator : Address F} {ansn : SeqNum} :
    r.IsOutdated originator ansn ↔ (r.tables.topology.toList.any fun t =>
      t.last = originator ∧ SeqNum.newer t.seqno ansn) = true := by
  rw [List.any_eq_true]
  constructor
  · rintro ⟨dest, s, hlisted, hnewer⟩
    obtain ⟨t, hmem, hl, -, rfl⟩ := Tables.listed_eq_some_iff.mp hlisted
    exact ⟨t, hmem, decide_eq_true ⟨hl, hnewer⟩⟩
  · rintro ⟨t, hmem, ht⟩
    obtain ⟨hl, hnewer⟩ := of_decide_eq_true ht
    exact ⟨t.dest, t.seqno, Tables.listed_eq_some_iff.mpr ⟨t, hmem, hl, rfl, rfl⟩, hnewer⟩

/-- A TC message over a symmetric link with an outdated set changes no table. -/
theorem processTc_of_isOutdated (hears : r.hears sender now = true) (h : r.IsOutdated originator ansn) :
    (r.processTc originator validity ansn neighbours sender now).tables = r.tables := by
  rw [processTc, if_pos hears, if_pos (isOutdated_iff.mp h)]
  rfl

/-- Any other makes the router forget what older sets list, and list what it advertises. -/
theorem processTc_listed (hears : r.hears sender now = true) (h : ¬ r.IsOutdated originator ansn)
    (dest : Address F) :
    (r.processTc originator validity ansn neighbours sender now).tables.listed originator dest =
      let held := (r.tables.listed originator dest).filter fun s => !SeqNum.newer ansn s
      if dest ∈ neighbours then some (held.getD ansn) else held := by
  have hheld : (r.onStore fun s => s.eraseAll (advertisedKeys s.tables originator fun t =>
        SeqNum.newer ansn t.seqno)).tables.listed originator dest =
      (r.tables.listed originator dest).filter fun s => !SeqNum.newer ansn s := by
    rw [Tables.listed, get?_eraseAdvertised, Tables.listed]
    cases r.tables.topology.get? (dest, originator) with
    | none => rfl
    | some t => cases hn : SeqNum.newer ansn t.seqno <;> simp [Option.filter, hn]
  rw [processTc, if_pos hears, if_neg fun ho => h (isOutdated_iff.mpr ho)]
  dsimp only
  rw [foldl_recordAdvertised_listed, hheld]

/-- Where all numbers lie within half a turn from `base`, no stored set is newer than one that is not
outdated. -/
theorem since_le_of_not_isOutdated {base : SeqNum} (hansn : base.since ansn ≤ 32767)
    (h : ¬ r.IsOutdated originator ansn) {dest : Address F} {s : SeqNum} (hs : base.since s ≤ 32767)
    (hlisted : r.tables.listed originator dest = some s) : base.since s ≤ base.since ansn :=
  Nat.le_of_not_lt fun hlt => h ⟨dest, s, hlisted, (SeqNum.newer_iff hs hansn).mpr hlt⟩

/-- The set that a TC message advertises is then listed beside what was listed under its number. -/
theorem processTc_listed_iff {base : SeqNum} (hears : r.hears sender now = true)
    (hansn : base.since ansn ≤ 32767)
    (hlisted : ∀ dest s, r.tables.listed originator dest = some s → base.since s ≤ 32767)
    (h : ¬ r.IsOutdated originator ansn) {dest : Address F} {s : SeqNum} :
    (r.processTc originator validity ansn neighbours sender now).tables.listed originator dest =
        some s ↔
      s = ansn ∧ (dest ∈ neighbours ∨ r.tables.listed originator dest = some ansn) := by
  have hheld (s : SeqNum) : (r.tables.listed originator dest).filter (fun s => !SeqNum.newer ansn s) =
      some s ↔ s = ansn ∧ r.tables.listed originator dest = some ansn := by
    rw [Option.filter_eq_some_iff]
    constructor
    · rintro ⟨hs, hnewer⟩
      have hle : base.since ansn ≤ base.since s := by
        refine Nat.le_of_not_lt fun hlt => ?_
        rw [(SeqNum.newer_iff hansn (hlisted dest s hs)).mpr hlt] at hnewer
        cases hnewer
      obtain rfl := SeqNum.eq_of_since_eq
        (Nat.le_antisymm (since_le_of_not_isOutdated hansn h (hlisted dest s hs) hs) hle)
      exact ⟨rfl, hs⟩
    · rintro ⟨rfl, hs⟩
      refine ⟨hs, ?_⟩
      rw [Bool.not_eq_true', Bool.eq_false_iff]
      exact fun hnewer => Nat.lt_irrefl _ ((SeqNum.newer_iff hansn hansn).mp hnewer)
  rw [processTc_listed hears h]
  dsimp only
  by_cases hdest : dest ∈ neighbours
  · have hget : ((r.tables.listed originator dest).filter fun s => !SeqNum.newer ansn s).getD ansn =
        ansn := by
      cases hf : (r.tables.listed originator dest).filter fun s => !SeqNum.newer ansn s with
      | none => rfl
      | some s' => exact ((hheld s').mp hf).1
    rw [if_pos hdest, hget, Option.some.injEq]
    exact ⟨fun he => ⟨he.symm, .inl hdest⟩, fun he => he.1.symm⟩
  · rw [if_neg hdest, hheld]
    simp only [hdest, false_or]

/-- What the messages of one originator say of it says nothing of another. -/
theorem processTc_get?_of_ne (r : Router F) (validity : Time) (ansn : SeqNum)
    (neighbours : List (Address F)) (sender : Address F) (now : Time) {last : Address F}
    (hl : last ≠ originator) (dest : Address F) :
    (r.processTc originator validity ansn neighbours sender now).tables.topology.get? (dest, last) =
      r.tables.topology.get? (dest, last) := by
  unfold processTc
  split
  · split
    · rfl
    · dsimp only
      rw [foldl_recordAdvertised_get? _ _ _ hl, get?_eraseAdvertised]
      cases r.tables.topology.get? (dest, last) <;> simp [hl]
  · rfl

/-- Relaying a message records no other. -/
theorem Forwards.get?_of_ne {m : Message F} (h : Forwards r m receiver sender now r')
    {k : Address F × SeqNum} (hk : m.key ≠ k) :
    r'.tables.duplicates.get? k = r.tables.duplicates.get? k := by
  cases h with
  | nothing => rfl
  | recorded _ _ _ _ _ ht => rw [ht, get?_insert_seenTuple, if_neg hk]

theorem hears_congr (hl : r'.tables.links = r.tables.links) (a : Address F) (now : Time) :
    r'.hears a now = r.hears a now := by
  rw [hears, symmetricLink?, hl, hears, symmetricLink?]

/-! ## One TC message after the other -/

/-- What is stored of the originator is what the newest of the TC messages advertise. -/
structure ListsLatest (r : Router F) (originator : Address F) (base : SeqNum) (ms : List (Message F)) :
    Prop where
  listed : ∀ dest s, r.tables.listed originator dest = some s ↔ IsLatest base ms s dest
  /-- Some set that is stored is at least as new as each that was advertised. -/
  covered : ∀ m ∈ ms, ∀ s dest, m.Advertises s dest →
    ∃ dest' s', r.tables.listed originator dest' = some s' ∧ base.since s ≤ base.since s'

namespace ListsLatest

variable {base : SeqNum} {ms : List (Message F)} {m : Message F}

/-- What is stored was advertised. -/
theorem since_le (h : r.ListsLatest originator base ms)
    (hms : ∀ m ∈ ms, ∀ s dest, m.Advertises s dest → base.since s ≤ 32767) (dest : Address F)
    (s : SeqNum) (hs : r.tables.listed originator dest = some s) : base.since s ≤ 32767 := by
  obtain ⟨m, hm, ha⟩ := ((h.listed dest s).mp hs).1
  exact hms m hm s dest ha

/-- The set of a message that is outdated is not the latest. -/
theorem of_isOutdated (h : r.ListsLatest originator base ms)
    (hms : ∀ m ∈ ms, ∀ s dest, m.Advertises s dest → base.since s ≤ 32767)
    (hm : m.body = .tc ansn neighbours) (hansn : base.since ansn ≤ 32767)
    (ho : r.IsOutdated originator ansn)
    (hr : ∀ dest, r'.tables.listed originator dest = r.tables.listed originator dest) :
    r'.ListsLatest originator base (ms ++ [m]) := by
  obtain ⟨dest₀, s₀, hlisted₀, hnewer⟩ := ho
  have hlt : base.since ansn < base.since s₀ :=
    (SeqNum.newer_iff (h.since_le hms dest₀ s₀ hlisted₀) hansn).mp hnewer
  obtain ⟨⟨m₀, hm₀, ha₀⟩, -⟩ := (h.listed dest₀ s₀).mp hlisted₀
  have htells {s : SeqNum} {dest : Address F} (ha : m.Advertises s dest) : s = ansn :=
    ((Message.advertises_iff hm).mp ha).1
  refine ⟨fun dest s => ?_, fun m' hm' s dest ha => ?_⟩
  · rw [hr, h.listed]
    constructor
    · rintro ⟨⟨m', hm', ha⟩, hmax⟩
      refine ⟨⟨m', List.mem_append_left _ hm', ha⟩, fun m'' hm'' s' dest' ha' => ?_⟩
      rcases List.mem_append.mp hm'' with hold | hnew
      · exact hmax m'' hold s' dest' ha'
      · obtain rfl := List.mem_singleton.mp hnew
        rw [htells ha']
        exact Nat.le_trans (Nat.le_of_lt hlt) (hmax m₀ hm₀ s₀ dest₀ ha₀)
    · rintro ⟨⟨m', hm', ha⟩, hmax⟩
      refine ⟨?_, fun m'' hm'' => hmax m'' (List.mem_append_left _ hm'')⟩
      rcases List.mem_append.mp hm' with hold | hnew
      · exact ⟨m', hold, ha⟩
      · obtain rfl := List.mem_singleton.mp hnew
        rw [htells ha] at hmax
        exact absurd (hmax m₀ (List.mem_append_left _ hm₀) s₀ dest₀ ha₀) (Nat.not_le_of_lt hlt)
  · simp only [hr]
    rcases List.mem_append.mp hm' with hold | hnew
    · exact h.covered m' hold s dest ha
    · obtain rfl := List.mem_singleton.mp hnew
      rw [htells ha]
      exact ⟨dest₀, s₀, hlisted₀, Nat.le_of_lt hlt⟩

/-- The set of a message that is not outdated is the latest. -/
theorem of_not_isOutdated (h : r.ListsLatest originator base ms)
    (hms : ∀ m ∈ ms, ∀ s dest, m.Advertises s dest → base.since s ≤ 32767)
    (hm : m.body = .tc ansn neighbours) (hansn : base.since ansn ≤ 32767) (hne : neighbours ≠ [])
    (ho : ¬ r.IsOutdated originator ansn)
    (hr : ∀ dest s, r'.tables.listed originator dest = some s ↔
      s = ansn ∧ (dest ∈ neighbours ∨ r.tables.listed originator dest = some ansn)) :
    r'.ListsLatest originator base (ms ++ [m]) := by
  obtain ⟨a, ha⟩ := List.exists_mem_of_ne_nil _ hne
  have htells {s : SeqNum} {dest : Address F} : m.Advertises s dest ↔ s = ansn ∧ dest ∈ neighbours :=
    Message.advertises_iff hm
  have hlast : m ∈ ms ++ [m] := List.mem_append_right _ List.mem_cons_self
  have hnewest {m' : Message F} (hm' : m' ∈ ms ++ [m]) {s : SeqNum} {dest : Address F}
      (ha : m'.Advertises s dest) : base.since s ≤ base.since ansn := by
    rcases List.mem_append.mp hm' with hold | hnew
    · obtain ⟨dest', s', hs', hle⟩ := h.covered m' hold s dest ha
      exact Nat.le_trans hle (since_le_of_not_isOutdated hansn ho (h.since_le hms dest' s' hs') hs')
    · obtain rfl := List.mem_singleton.mp hnew
      exact Nat.le_of_eq (congrArg _ (htells.mp ha).1)
  refine ⟨fun dest s => ?_, fun m' hm' s dest hsaid => ?_⟩
  · rw [hr]
    constructor
    · rintro ⟨rfl, hdest⟩
      refine ⟨?_, fun m' hm' s' dest' hsaid => hnewest hm' hsaid⟩
      rcases hdest with hdest | hdest
      · exact ⟨m, hlast, htells.mpr ⟨rfl, hdest⟩⟩
      · obtain ⟨⟨m', hm', hsaid⟩, -⟩ := (h.listed dest s).mp hdest
        exact ⟨m', List.mem_append_left _ hm', hsaid⟩
    · rintro ⟨⟨m', hm', hsaid⟩, hmax⟩
      obtain rfl := SeqNum.eq_of_since_eq
        (Nat.le_antisymm (hnewest hm' hsaid) (hmax m hlast ansn a (htells.mpr ⟨rfl, ha⟩)))
      rcases List.mem_append.mp hm' with hold | hnew
      · refine ⟨rfl, .inr ((h.listed dest s).mpr ⟨⟨m', hold, hsaid⟩, fun m'' hm'' => ?_⟩)⟩
        exact hmax m'' (List.mem_append_left _ hm'')
      · obtain rfl := List.mem_singleton.mp hnew
        exact ⟨rfl, .inl (htells.mp hsaid).2⟩
  · exact ⟨a, ansn, (hr a ansn).mpr ⟨rfl, .inl ha⟩, hnewest hm' hsaid⟩

end ListsLatest

/-- The router `r` is what `r₀` became through TC messages of one originator. -/
structure HasHeard (r₀ : Router F) (originator : Address F) (base : SeqNum) (ms : List (Message F))
    (r : Router F) : Prop extends r.ListsLatest originator base ms where
  node : SameNode r₀ r
  links : r.tables.links = r₀.tables.links
  seen : ∀ k, k ∉ ms.map Message.key → r.tables.duplicates.get? k = r₀.tables.duplicates.get? k
  others : ∀ dest last, last ≠ originator →
    r.tables.topology.get? (dest, last) = r₀.tables.topology.get? (dest, last)

namespace HasHeard

variable {r₀ : Router F} {base : SeqNum} {ms : List (Message F)} {m : Message F}

/-- What touches neither links nor topology nor seen messages does not matter. -/
theorem congr (h : HasHeard r₀ originator base ms r) (hn : SameNode r r')
    (ht : r'.tables = r.tables) : HasHeard r₀ originator base ms r' where
  listed := by
    rw [ht]
    exact h.listed
  covered := by
    rw [ht]
    exact h.covered
  node := h.node.trans hn
  links := ht ▸ h.links
  seen := ht ▸ h.seen
  others := ht ▸ h.others

/-- One more TC message. -/
theorem handleMessage (h : HasHeard r₀ originator base ms r)
    (hseries : IsTcSeries originator base (ms ++ [m])) (hlocal : r₀.isLocal originator = false)
    (hnew : r₀.tables.duplicates.get? m.key = none) (hears : r₀.hears sender now = true) :
    HasHeard r₀ originator base (ms ++ [m]) (handleMessage receiver sender now r m) := by
  obtain ⟨ho, httl, k, neighbours, hk, hne, hbody⟩ :=
    hseries.tc m (List.mem_append_right _ List.mem_cons_self)
  have hunseen : r.tables.duplicates.get? m.key = none := by
    rw [h.seen m.key hseries.key_notMem, hnew]
  have hears : r.hears sender now = true := by
    rw [hears_congr h.links]
    exact hears
  have hd : Does reception now r (Router.handleMessage receiver sender now r m) :=
    handleMessage_does r m receiver sender
  have hh := r.handleMessage_handles m receiver sender now
  generalize Router.handleMessage receiver sender now r m = r' at hd hh
  cases hh with
  | ignored hi =>
    rcases hi with hz | hl | hs
    · exact absurd hz httl
    · rw [ho, h.node.isLocal_eq, hlocal] at hl
      cases hl
    · rw [hasSeen_of_none hunseen] at hs
      cases hs
  | again _ hs =>
    rw [hunseen] at hs
    cases hs
  | greeted _ _ _ hhello =>
    rw [hbody] at hhello
    cases hhello
  | first hl _ hhello hf =>
    have htopology : r'.tables.topology =
        (r.process m receiver sender now).tables.topology := by rw [hf.tables]
    have hprocess : r.process m receiver sender now = r.processTc originator m.validity.duration
        (base + UInt16.ofNat k) neighbours sender now := by
      rw [process, hbody, ho]
    have hansn : base.since (base + UInt16.ofNat k) ≤ 32767 := by
      rw [SeqNum.since_add base hk]
      exact hk
    have hms : ∀ m ∈ ms, ∀ s dest, m.Advertises s dest → base.since s ≤ 32767 :=
      fun m hm s dest ha => hseries.since_le (List.mem_append_left _ hm) ha
    refine ⟨?_, h.node.trans hd.sameNode, ?_, fun key hkey => ?_, fun dest last hlast => ?_⟩
    · by_cases hold : r.IsOutdated originator (base + UInt16.ofNat k)
      · refine h.of_isOutdated hms hbody hansn hold fun dest => ?_
        rw [Tables.listed, htopology, hprocess, processTc_of_isOutdated hears hold, Tables.listed]
      · refine h.of_not_isOutdated hms hbody hansn hne hold fun dest s => ?_
        rw [Tables.listed, htopology, hprocess]
        exact processTc_listed_iff hears hansn (h.since_le hms) hold
    · rw [hf.tables, process_links hl hhello, h.links]
    · rw [List.map_append, List.mem_append, not_or] at hkey
      obtain ⟨hother, hkey⟩ := hkey
      rw [hf.get?_of_ne fun he : m.key = key => hkey (he ▸ List.mem_cons_self), process_duplicates hl,
        h.seen key hother]
    · rw [htopology, hprocess, processTc_get?_of_ne _ _ _ _ _ _ hlast, h.others dest last hlast]

/-- One packet after the other. -/
theorem foldl_handleMessage {ms' : List (Message F)} (h : HasHeard r₀ originator base ms r)
    (hseries : IsTcSeries originator base (ms ++ ms')) (hlocal : r₀.isLocal originator = false)
    (hnew : ∀ m ∈ ms', r₀.tables.duplicates.get? m.key = none) (hears : r₀.hears sender now = true) :
    HasHeard r₀ originator base (ms ++ ms')
      (ms'.foldl (Router.handleMessage receiver sender now) r) := by
  induction ms' generalizing ms r with
  | nil =>
    rw [List.append_nil]
    exact h
  | cons m ms' ih =>
    have hsplit : ms ++ m :: ms' = (ms ++ [m]) ++ ms' := by simp
    rw [hsplit] at hseries ⊢
    have hone : HasHeard r₀ originator base (ms ++ [m])
        (Router.handleMessage receiver sender now r m) :=
      h.handleMessage hseries.of_append hlocal (hnew m List.mem_cons_self) hears
    exact ih hone hseries fun m' hm' => hnew m' (List.mem_cons_of_mem _ hm')

end HasHeard

/-- The operation brings a packet with the given messages, on an interface that the router has, from a
sender to which it has a symmetric link. -/
def Brings (r : Router F) (now : Time) (op : Operation F) (ms : List (Message F)) : Prop :=
  ∃ id receiver sender datagram seqno, op = .packet id sender datagram ∧
    r.interfaceAddress? id = some receiver ∧ r.hears sender now = true ∧
    Packet.decode datagram = .ok ⟨seqno, ms⟩

theorem HasHeard.apply {r₀ : Router F} {base : SeqNum} {ms ms' : List (Message F)} {op : Operation F}
    (h : HasHeard r₀ originator base ms r) (hseries : IsTcSeries originator base (ms ++ ms'))
    (hr : r₀.running = true) (hlocal : r₀.isLocal originator = false)
    (hnew : ∀ m ∈ ms', r₀.tables.duplicates.get? m.key = none) (hop : r₀.Brings now op ms') :
    HasHeard r₀ originator base (ms ++ ms') (r.apply now op) := by
  obtain ⟨id, receiver, sender, datagram, seqno, rfl, hid, hears, hp⟩ := hop
  have hid : r.interfaceAddress? id = some receiver := by
    rw [interfaceAddress?, h.node.interfaces]
    exact hid
  rw [Router.apply, handlePacket_of_decode (h.node.running.trans hr) hid hp]
  have hnoted : HasHeard r₀ originator base ms (r.note (.packetReceived seqno ms'.length sender)) :=
    h.congr ⟨rfl, rfl, rfl, rfl, rfl, rfl, rfl⟩ rfl
  have htaken : HasHeard r₀ originator base (ms ++ ms')
      (ms'.foldl (Router.handleMessage receiver sender now) _) :=
    hnoted.foldl_handleMessage hseries hlocal hnew hears
  have hd (r : Router F) : Does [.routes] now r (r.updateRoutes now) :=
    (Does.nothing r).routes (by decide)
  exact htaken.congr (hd _).sameNode (updateRoutes_tables _ now)

theorem HasHeard.run {r₀ : Router F} {base : SeqNum} {ms : List (Message F)} {ops : List (Operation F)}
    {parts : List (List (Message F))} (h : HasHeard r₀ originator base ms r)
    (hops : List.Forall₂ (r₀.Brings now) ops parts)
    (hseries : IsTcSeries originator base (ms ++ parts.flatten))
    (hr : r₀.running = true) (hlocal : r₀.isLocal originator = false)
    (hnew : ∀ m ∈ parts.flatten, r₀.tables.duplicates.get? m.key = none) :
    HasHeard r₀ originator base (ms ++ parts.flatten) (r.run (ops.map (now, ·))) := by
  induction hops generalizing ms r with
  | nil =>
    rw [List.flatten_nil, List.append_nil]
    exact h
  | @cons op ms' ops parts hop _ ih =>
    rw [List.flatten_cons, ← List.append_assoc] at hseries ⊢
    rw [List.flatten_cons] at hnew
    have hone := h.apply hseries.of_append hr hlocal
      (fun m hm => hnew m (List.mem_append_left _ hm)) hop
    exact ih hone hseries fun m hm => hnew m (List.mem_append_right _ hm)

/-- In whatever order, and in whatever packets, the TC messages of a node come over symmetric links at
one clock reading: a router that knew nothing of it knows the nodes that the newest of them advertise,
and of other nodes what it knew. -/
theorem run_tcs {base : SeqNum} {ms : List (Message F)} {ops : List (Operation F)}
    {parts : List (List (Message F))} (hseries : IsTcSeries originator base ms)
    (hr : r.running = true) (hlocal : r.isLocal originator = false)
    (htopology : ∀ t ∈ r.tables.topology, t.last ≠ originator)
    (hnew : ∀ m ∈ ms, r.tables.duplicates.get? m.key = none)
    (hops : List.Forall₂ (r.Brings now) ops parts) (hperm : parts.flatten.Perm ms) :
    let r' := r.run (ops.map (now, ·))
    (∀ dest ansn, (∃ t ∈ r'.tables.topology, t.last = originator ∧ t.dest = dest ∧ t.seqno = ansn) ↔
      IsLatest base ms ansn dest) ∧
    ∀ t, t.last ≠ originator → (t ∈ r'.tables.topology ↔ t ∈ r.tables.topology) := by
  have hmem (m : Message F) : m ∈ parts.flatten ↔ m ∈ ms := hperm.mem_iff
  have hseries' : IsTcSeries originator base ([] ++ parts.flatten) :=
    ⟨fun m hm => hseries.tc m ((hmem m).mp hm), (hperm.map _).nodup_iff.mpr hseries.distinct⟩
  have hstart : HasHeard r originator base [] r := by
    refine ⟨⟨fun dest s => ?_, nofun⟩, .refl r, rfl, fun _ _ => rfl, fun _ _ _ => rfl⟩
    constructor
    · intro hs
      obtain ⟨t, ht, hl, -⟩ := Tables.listed_eq_some_iff.mp hs
      exact absurd hl (htopology t ht)
    · rintro ⟨⟨m, hm, -⟩, -⟩
      cases hm
  have hend := hstart.run hops hseries' hr hlocal fun m hm => hnew m ((hmem m).mp hm)
  refine ⟨fun dest ansn => ?_, fun t ht => ?_⟩
  · rw [← Tables.listed_eq_some_iff, hend.listed]
    exact IsLatest.congr hmem
  · have hget := hend.others t.dest t.last ht
    have hkey (T : Table (TopologyTuple F)) : T.get? (t.dest, t.last) = some t ↔ t ∈ T := by
      rw [Table.get?_eq_some_iff]
      exact ⟨fun h => h.1, fun h => ⟨h, rfl⟩⟩
    rw [← hkey, ← hkey, hget]

/-- A TC message of the distant node 10.0.0.9 with one advertised neighbour. -/
def distantTc (seqno ansn : SeqNum) (dest : Address .ipv4) : Message .ipv4 where
  validity := ⟨0x8a⟩
  originator := .ofNat 0x0a000009
  ttl := 5
  hops := 2
  seqno := seqno
  body := .tc ansn [dest]

/-- The later of two TC messages, whose number has wrapped around, and then the earlier one. -/
def overtaking : List (Operation .ipv4) :=
  [.packet (.number 0) (.ofNat 0x0a000002)
      [0, 24, 0, 1, 2, 0x8a, 0, 20, 10, 0, 0, 9, 5, 2, 0, 8, 0, 0, 0, 0, 10, 0, 0, 7],
    .packet (.number 0) (.ofNat 0x0a000002)
      [0, 24, 0, 2, 2, 0x8a, 0, 20, 10, 0, 0, 9, 5, 2, 0, 7, 255, 255, 0, 0, 10, 0, 0, 8]]

theorem run_tcs_overtaking :
    let earlier := distantTc 7 65535 (.ofNat 0x0a000008)
    let later := distantTc 8 0 (.ofNat 0x0a000007)
    let r' := sample.run (overtaking.map (0, ·))
    IsTcSeries (.ofNat 0x0a000009) 65535 [earlier, later] ∧
      List.Forall₂ (sample.Brings 0) overtaking [[later], [earlier]] ∧
      (∀ dest ansn, (∃ t ∈ r'.tables.topology, t.last = .ofNat 0x0a000009 ∧ t.dest = dest ∧
        t.seqno = ansn) ↔ IsLatest 65535 [earlier, later] ansn dest) ∧
      ∀ t, t.last ≠ .ofNat 0x0a000009 → (t ∈ r'.tables.topology ↔ t ∈ sample.tables.topology) := by
  have hseries : IsTcSeries (.ofNat 0x0a000009) 65535
      [distantTc 7 65535 (.ofNat 0x0a000008), distantTc 8 0 (.ofNat 0x0a000007)] := by
    refine ⟨fun m hm => ?_, by decide⟩
    rcases List.mem_pair.mp hm with rfl | rfl
    · exact ⟨rfl, by decide, 0, [.ofNat 0x0a000008], by decide, nofun, rfl⟩
    · exact ⟨rfl, by decide, 1, [.ofNat 0x0a000007], by decide, nofun, rfl⟩
  have hid : sample.interfaceAddress? (.number 0) = some sampleAddress := by decide +kernel
  have hears : sample.hears (.ofNat 0x0a000002) 0 = true := by decide +kernel
  have hops : List.Forall₂ (sample.Brings 0) overtaking
      [[distantTc 8 0 (.ofNat 0x0a000007)], [distantTc 7 65535 (.ofNat 0x0a000008)]] :=
    .cons ⟨_, _, _, _, 1, rfl, hid, hears, Packet.decode_eq_ok_of_toOption (by decide +kernel)⟩
      (.cons ⟨_, _, _, _, 2, rfl, hid, hears, Packet.decode_eq_ok_of_toOption (by decide +kernel)⟩ .nil)
  exact ⟨hseries, hops, run_tcs hseries (by decide +kernel) (by decide +kernel)
    (by decide +kernel) (by decide +kernel) hops (.swap _ _ _)⟩

end Router

end Manet
