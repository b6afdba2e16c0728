import Manet.Proofs.ReorderedTc

/-!
# What a TC message changes

All topology tuples that a router stores of one originator come from the same set, so they have the same
number (`Tables.IsUniform`, `Reachable.isUniform`). Of two different numbers one is always the newer one
(`SeqNum.eq_of_not_newer`), also of two that are half a turn apart, and so a TC message that is not
outdated leaves no tuple with another number than its own. What it leaves is said exactly by
`mem_topology_processTc_iff`.
-/

namespace Manet

variable {F : Family}

namespace SeqNum

theorem newer_self (s : SeqNum) : newer s s = false := by
  simp [newer]

/-- The comparison decides between any two numbers. -/
theorem eq_of_not_newer {s t : SeqNum} (hs : newer s t = false) (ht : newer t s = false) : s = t := by
  simp only [newer, decide_eq_false_iff_not, UInt16.lt_iff_toNat_lt] at hs ht
  refine UInt16.toNat_inj.mp ?_
  omega

end SeqNum

/-- All topology tuples with the same originator have the same number. -/
def Tables.IsUniform (T : Tables F) : Prop :=
  ∀ t ∈ T.topology, ∀ t' ∈ T.topology, t.last = t'.last → t.seqno = t'.seqno

theorem Tables.IsUniform.mono {T T' : Tables F} (h : T.IsUniform)
    (hsub : ∀ t ∈ T'.topology, t ∈ T.topology) : T'.IsUniform :=
  fun t ht t' ht' => h t (hsub t ht) t' (hsub t' ht')

theorem Tables.mem_topology_iff {T : Tables F} {t : TopologyTuple F} :
    t ∈ T.topology ↔ T.topology.get? (t.dest, t.last) = some t := by
  rw [Table.get?_eq_some_iff]
  exact ⟨fun h => ⟨h, rfl⟩, fun h => h.1⟩

theorem Does.mem_topology {ps : List Part} {now : Time} {r r' : Router F} (h : Does ps now r r')
    (hp : ∀ p ∈ ps, p.brings .topology = false) :
    ∀ t ∈ r'.tables.topology, t ∈ r.tables.topology := by
  intro t ht
  have hget := h.get?_of_get? (k := .topology t.dest t.last) hp
    (Tables.get?_key_topology (Tables.mem_topology_iff.mp ht))
  obtain ⟨u, hu, he⟩ := Option.map_eq_some_iff.mp hget
  obtain rfl := TimedTuple.topology.inj he
  exact Tables.mem_topology_iff.mpr hu

/-- What concerns the topology only leaves the other tables alone. -/
theorem Does.tables_eq_withTopology {now : Time} {r r' : Router F}
    (h : Does [.journal, .stored .topology, .refreshed .topology, .dropped .topology] now r r') :
    r'.tables = { r.tables with topology := r'.tables.topology } := by
  refine h.keep (P := fun r' => r'.tables = { r.tables with topology := r'.tables.topology })
    (fun r' d hd _ hr => ?_) rfl
  rw [r'.perform_tables]
  cases d with
  | note | tell => exact hr
  | insert t =>
    cases t with
    | topology t =>
      unfold Deed.onTables
      rw [hr]
      rfl
    | association t =>
      rw [Deed.part] at hd
      split at hd <;> simp [TimedTuple.key, TupleKey.kind] at hd
    | _ => simp [Deed.part, TimedTuple.key, TupleKey.kind, TimedTuple.time] at hd
  | refresh t =>
    cases t with
    | topology t =>
      unfold Deed.onTables
      rw [hr]
      rfl
    | _ => simp [Deed.part, TimedTuple.key, TupleKey.kind] at hd
  | erase k =>
    cases k with
    | topology =>
      unfold Deed.onTables
      dsimp only
      split
      · rw [hr]
        rfl
      · exact hr
    | _ => simp [Deed.part, TupleKey.kind] at hd
  | _ => simp [Deed.part] at hd

namespace Router

variable {now validity : Time} {r r' : Router F} {originator receiver sender : Address F}
  {ansn : SeqNum} {neighbours : List (Address F)}

/-! ## One TC message -/

/-- What is advertised is stored until the given time, under the number that it is stored under already
if there is one. -/
theorem foldl_recordAdvertised_get?_self (ansn : SeqNum) (validUntil now : Time)
    (neighbours : List (Address F)) (r : Router F) (dest : Address F) :
    (neighbours.foldl (recordAdvertised originator ansn validUntil now) r).tables.topology.get?
        (dest, originator) =
      if dest ∈ neighbours then
        some ⟨dest, originator, (r.tables.listed originator dest).getD ansn, validUntil⟩
      else r.tables.topology.get? (dest, originator) := by
  induction neighbours generalizing r with
  | nil => rfl
  | cons a neighbours ih =>
    rw [List.foldl_cons, ih, Tables.listed, recordAdvertised_get?]
    by_cases ha : a = dest
    · subst ha
      simp
    · have hkey : (a, originator) ≠ (dest, originator) := fun h => ha (Prod.mk.inj h).1
      rw [if_neg hkey]
      simp [Tables.listed, Ne.symm ha]

/-- Of an originator whose tuples are no newer than `ansn`, those under that number stay when the older
ones go. -/
theorem get?_eraseOlder (h : ¬ r.IsOutdated originator ansn) (dest : Address F) :
    (r.onStore fun s => s.eraseAll
        (advertisedKeys s.tables originator fun t => SeqNum.newer ansn t.seqno)).tables.topology.get?
        (dest, originator) =
      (r.tables.topology.get? (dest, originator)).filter fun t => t.seqno = ansn := by
  rw [get?_eraseAdvertised]
  cases ht : r.tables.topology.get? (dest, originator) with
  | none => rfl
  | some t =>
    have holder : SeqNum.newer t.seqno ansn = false := Bool.eq_false_iff.mpr fun hnewer =>
      h ⟨dest, t.seqno, congrArg (Option.map _) ht, hnewer⟩
    have hiff : (!decide (originator = originator ∧ SeqNum.newer ansn t.seqno = true)) = true ↔
        t.seqno = ansn := by
      rw [Bool.not_eq_true', decide_eq_false_iff_not, not_and, Bool.not_eq_true]
      refine ⟨fun hn => SeqNum.eq_of_not_newer holder (hn rfl), ?_⟩
      rintro rfl -
      exact SeqNum.newer_self t.seqno
    rw [Option.filter_some, Option.filter_some, Bool.eq_iff_iff.mpr (hiff.trans decide_eq_true_iff.symm)]

/-- What an originator advertises is stored under the number of its TC message, beside what was stored
under that number. -/
theorem processTc_get? (hears : r.hears sender now = true) (h : ¬ r.IsOutdated originator ansn)
    (dest : Address F) :
    (r.processTc originator validity ansn neighbours sender now).tables.topology.get?
        (dest, originator) =
      if dest ∈ neighbours then some ⟨dest, originator, ansn, now + validity⟩
      else (r.tables.topology.get? (dest, originator)).filter fun t => t.seqno = ansn := by
  let erased := r.onStore fun s =>
    s.eraseAll (advertisedKeys s.tables originator fun t => SeqNum.newer ansn t.seqno)
  have hheld : erased.tables.topology.get? (dest, originator) =
      (r.tables.topology.get? (dest, originator)).filter fun t => t.seqno = ansn := get?_eraseOlder h dest
  have hnumber : (erased.tables.listed originator dest).getD ansn = ansn := by
    rw [Tables.listed, hheld]
    cases hf : (r.tables.topology.get? (dest, originator)).filter fun t => t.seqno = ansn with
    | none => rfl
    | some t => exact of_decide_eq_true (Option.filter_eq_some_iff.mp hf).2
  rw [processTc, if_pos hears, if_neg fun ho => h (isOutdated_iff.mpr ho)]
  dsimp only
  rw [foldl_recordAdvertised_get?_self]
  by_cases hdest : dest ∈ neighbours
  · rw [if_pos hdest, if_pos hdest]
    exact congrArg (fun s => some (TopologyTuple.mk dest originator s (now + validity))) hnumber
  · rw [if_neg hdest, if_neg hdest]
    exact hheld

/-- The topology tuples after a TC message that is not outdated. -/
theorem mem_topology_processTc (hears : r.hears sender now = true) (h : ¬ r.IsOutdated originator ansn)
    {t : TopologyTuple F} :
    t ∈ (r.processTc originator validity ansn neighbours sender now).tables.topology ↔
      if t.last = originator then
        t.seqno = ansn ∧ if t.dest ∈ neighbours then t.time = now + validity else t ∈ r.tables.topology
      else t ∈ r.tables.topology := by
  rw [Tables.mem_topology_iff, Tables.mem_topology_iff]
  by_cases ho : t.last = originator
  · rw [if_pos ho, ho, processTc_get? hears h]
    by_cases hdest : t.dest ∈ neighbours
    · rw [if_pos hdest, if_pos hdest, Option.some.injEq]
      constructor
      · intro he
        exact ⟨(congrArg TopologyTuple.seqno he).symm, (congrArg TopologyTuple.time he).symm⟩
      · rintro ⟨hs, htime⟩
        rw [← ho, ← hs, ← htime]
    · rw [if_neg hdest, if_neg hdest, Option.filter_eq_some_iff, decide_eq_true_eq, and_comm]
  · rw [if_neg ho, processTc_get?_of_ne _ _ _ _ _ _ ho]

theorem processTc_isUniform (h : r.tables.IsUniform) (originator : Address F) (validity : Time)
    (ansn : SeqNum) (neighbours : List (Address F)) (sender : Address F) (now : Time) :
    (r.processTc originator validity ansn neighbours sender now).tables.IsUniform := by
  by_cases hears : r.hears sender now = true
  · by_cases ho : r.IsOutdated originator ansn
    · rwa [processTc_of_isOutdated hears ho]
    · intro t ht t' ht' hlast
      rw [mem_topology_processTc hears ho] at ht ht'
      by_cases hl : t.last = originator
      · rw [if_pos hl] at ht
        rw [if_pos (hlast ▸ hl)] at ht'
        exact ht.1.trans ht'.1.symm
      · rw [if_neg hl] at ht
        rw [if_neg (hlast ▸ hl)] at ht'
        exact h t ht t' ht' hlast
  · rwa [processTc, if_neg hears]

/-! ## Runs -/

theorem process_isUniform (h : r.tables.IsUniform) (m : Message F) (receiver sender : Address F)
    (now : Time) (hlocal : r.isLocal m.originator = false) :
    (r.process m receiver sender now).tables.IsUniform := by
  unfold process
  split
  · exact h.mono ((processHello_does _ _ _ _ _ _ _).mem_topology (by decide))
  · exact processTc_isUniform h _ _ _ _ _ _
  · exact h.mono ((processMid_does _ (ne_address_of_isLocal hlocal) _ _ _).mem_topology (by decide))
  · exact h

theorem Forwards.topology {m : Message F} (h : Forwards r m receiver sender now r') :
    r'.tables.topology = r.tables.topology := by
  cases h with
  | nothing => rfl
  | recorded _ _ _ _ _ ht => rw [ht]

theorem handleMessage_isUniform (h : r.tables.IsUniform) (m : Message F) (receiver sender : Address F)
    (now : Time) : (handleMessage receiver sender now r m).tables.IsUniform := by
  have hh := r.handleMessage_handles m receiver sender now
  generalize handleMessage receiver sender now r m = r' at hh
  cases hh with
  | ignored => exact h
  | again _ _ _ _ hf => exact h.mono fun t ht => hf.topology ▸ ht
  | greeted _ hlocal => exact process_isUniform h m receiver sender now hlocal
  | first hlocal _ _ hf =>
    exact (process_isUniform h m receiver sender now hlocal).mono fun t ht => hf.topology ▸ ht

theorem apply_isUniform (h : r.tables.IsUniform) (now : Time) (op : Operation F) :
    (r.apply now op).tables.IsUniform := by
  have hs := r.apply_step now op
  generalize hr' : r.apply now op = r' at hs
  cases hs with
  | idle => exact h
  | stop => exact h.mono nofun
  | packet id sender datagram =>
    rw [← hr']
    refine apply_packet_induction (P := fun r => r.tables.IsUniform) h (fun _ _ hr => hr)
      (fun r m receiver sender hr => handleMessage_isUniform hr m receiver sender now)
      (fun r hr => ?_) id sender datagram
    rwa [updateRoutes_tables]
  | start _ _ _ hd | refresh _ hd | linkFailed _ _ hd | hello _ _ _ hd | tc _ _ _ hd | mid _ _ _ hd
  | flush _ hd => exact h.mono (hd.mem_topology (by decide))
  | expiry key generation _ hd =>
    refine h.mono fun t ht => ?_
    have hget := Store.get?_of_get?_expire (Tables.get?_key_topology (Tables.mem_topology_iff.mp
      (hd.mem_topology (by decide) t ht)))
    obtain ⟨u, hu, he⟩ := Option.map_eq_some_iff.mp hget
    obtain rfl := TimedTuple.topology.inj he
    exact Tables.mem_topology_iff.mpr hu

theorem Reachable.isUniform {t : Time} (h : r.Reachable t) : r.tables.IsUniform := by
  induction h with
  | create => exact nofun
  | apply op _ _ ih => exact apply_isUniform ih _ op

/-- What a message may find in place of the router: the router itself, or what the messages before it in
one packet made of it. -/
def Finds (now : Time) (r r' : Router F) : Prop :=
  r' = r ∨ ∃ op : Operation F, ∃ x ∈ op.receptions now r, r' = x.router

theorem Reachable.isUniform_of_finds {t : Time} (h : r.Reachable t) (hfinds : Finds now r r') :
    r'.tables.IsUniform := by
  obtain rfl | ⟨op, x, hx, rfl⟩ := hfinds
  · exact h.isUniform
  · cases op with
    | packet id sender datagram =>
      rcases r.apply_packet_cases now id sender datagram with ⟨-, hnone⟩ | ⟨_, _, -, -, -, -, he⟩
      · rw [hnone] at hx
        cases hx
      · rw [he] at hx
        exact router_of_mem_receive (P := fun r => r.tables.IsUniform)
          (fun _ m hr => handleMessage_isUniform hr m _ _ _) hx h.isUniform
    | _ => cases hx

/-- What a TC message over a symmetric link changes. The topology tuples with its originator have one
number. If it is newer than that of the message, nothing changes; otherwise all of them get the number of
the message, those that it advertises are valid for its validity time, of the others those stay that had
the number before, and all else stays. -/
theorem Reachable.mem_topology_processTc_iff {t : Time} (h : r.Reachable t) (hfinds : Finds now r r') :
    r'.tables.IsUniform ∧
      ∀ sender, r'.hears sender now = true → ∀ originator validity ansn neighbours,
        let r'' := r'.processTc originator validity ansn neighbours sender now
        (r'.IsOutdated originator ansn → r'' = r'.note (.tcOutdated ansn originator)) ∧
        (¬ r'.IsOutdated originator ansn →
          r''.tables = { r'.tables with topology := r''.tables.topology } ∧
          ∀ t, t ∈ r''.tables.topology ↔
            if t.last = originator then
              t.seqno = ansn ∧
                if t.dest ∈ neighbours then t.time = now + validity else t ∈ r'.tables.topology
            else t ∈ r'.tables.topology) := by
  refine ⟨h.isUniform_of_finds hfinds, fun sender hears originator validity ansn neighbours =>
    ⟨fun ho => ?_, fun ho => ⟨?_, fun t => mem_topology_processTc hears ho⟩⟩⟩
  · rw [processTc, if_pos hears, if_pos (isOutdated_iff.mp ho)]
  · exact (processTc_does _ _ _ _ _ _).tables_eq_withTopology

/-- The node that knows the neighbour 10.0.0.7 of the distant node 10.0.0.9, from the set with number 0. -/
def informed : Router .ipv4 :=
  sample.apply 0 (.packet (.number 0) (.ofNat 0x0a000002)
    [0, 24, 0, 1, 2, 0x8a, 0, 20, 10, 0, 0, 9, 5, 2, 0, 8, 0, 0, 0, 0, 10, 0, 0, 7])

theorem mem_topology_processTc_iff_informed :
    informed.Reachable 0 ∧ Finds 0 informed informed ∧
      -- Of two numbers half a turn apart, the one that is stored counts as the newer one here.
      informed.IsOutdated (.ofNat 0x0a000009) 32768 ∧
      informed.processTc (.ofNat 0x0a000009) 5 32768 [.ofNat 0x0a000008] (.ofNat 0x0a000002) 0 =
        informed.note (.tcOutdated 32768 (.ofNat 0x0a000009)) ∧
      ¬ informed.IsOutdated (.ofNat 0x0a000009) 0 ∧
      ∀ t, t ∈ (informed.processTc (.ofNat 0x0a000009) 5 0 [.ofNat 0x0a000008, .ofNat 0x0a000008]
          (.ofNat 0x0a000002) 0).tables.topology ↔
        if t.last = .ofNat 0x0a000009 then
          t.seqno = 0 ∧
            if t.dest ∈ [Address.ofNat 0x0a000008, .ofNat 0x0a000008] then t.time = 0 + 5
            else t ∈ informed.tables.topology
        else t ∈ informed.tables.topology := by
  have hreachable : informed.Reachable 0 := .apply _ sample_reachable (Nat.le_refl 0)
  have hears : informed.hears (.ofNat 0x0a000002) 0 = true := by decide +kernel
  have hold : informed.IsOutdated (.ofNat 0x0a000009) 32768 := isOutdated_iff.mpr (by decide +kernel)
  have hsame : ¬ informed.IsOutdated (.ofNat 0x0a000009) 0 := fun h =>
    absurd (isOutdated_iff.mp h) (by decide +kernel)
  have hfinds : Finds 0 informed informed := .inl rfl
  have heffect := (hreachable.mem_topology_processTc_iff hfinds).2 _ hears (.ofNat 0x0a000009) 5
  exact ⟨hreachable, hfinds, hold, (heffect 32768 _).1 hold, hsame, ((heffect 0 _).2 hsame).2⟩

end Router

end Manet
