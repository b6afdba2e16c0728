import Mathlib.Algebra.Ring.Nat
import Mathlib.Data.List.Nodup
import Mathlib.Data.List.Perm.Basic
import Manet.Proofs.Flooding

/-!
# The number of the advertised set

A TC message advertises the neighbours that selected its originator, under a number by which other
nodes tell an old set from a new one. `Router.turnover` counts the selectors that come and go in a
run, and the number of the set counts along with it (`ansn_run`): of two TC messages, the later one
has the number of the earlier one plus the turnover between them (`ansn_eq_add_turnover`). Hence two
TC messages of one number advertise the same set, unless the number has come full circle.

While a link is sensed or a tuple expires, selectors only go (`Does.sheds`). Only a HELLO that lists
this node as relay brings one (`recordSelector_gains`), after it has sensed the link, so that
`Reception.turnover` looks at the set in between: a selector that goes and comes back counts twice.
-/

namespace Manet

variable {F : Family}

theorem SeqNum.eq_add_of_add_eq {s s' : SeqNum} {k n m : Nat} (h : k + n = m)
    (he : s' + UInt16.ofNat n = s + UInt16.ofNat m) : s' = s + UInt16.ofNat k := by
  rw [← h, UInt16.ofNat_add, ← UInt16.add_assoc] at he
  exact (UInt16.add_left_inj _).mp he

/-- A number is newer than those behind it by at most half a turn. -/
theorem SeqNum.newer_add {s : SeqNum} {k : Nat} (h : 1 ≤ k) (h' : k ≤ 32767) :
    newer (s + UInt16.ofNat k) s = true := by
  have hs := s.toNat_lt
  have hk : (UInt16.ofNat k).toNat = k := UInt16.toNat_ofNat_of_lt (Nat.lt_of_le_of_lt h' (by decide))
  have hadd : (s + UInt16.ofNat k).toNat = (s.toNat + k) % 65536 := by
    rw [UInt16.toNat_add, hk]
  rw [newer, decide_eq_true_eq, UInt16.lt_iff_toNat_lt, UInt16.lt_iff_toNat_lt, hadd]
  omega

/-- Less than a full turn leads back to a number only if it is none. -/
theorem SeqNum.eq_zero_of_add_eq {s : SeqNum} {k : Nat} (h : k < 65536) (he : s + UInt16.ofNat k = s) :
    k = 0 := by
  have hs := s.toNat_lt
  have hk : (UInt16.ofNat k).toNat = k := UInt16.toNat_ofNat_of_lt h
  have hadd : (s.toNat + k) % 65536 = s.toNat := by
    have hnat := congrArg UInt16.toNat he
    rwa [UInt16.toNat_add, hk] at hnat
  omega

namespace AddressSet

variable {A B : AddressSet F}

/-- How many addresses come or go from one set to another. -/
def turnover (A B : AddressSet F) : Nat := A.toList.countP (· ∉ B) + B.toList.countP (· ∉ A)

theorem nodup_toList (A : AddressSet F) : A.toList.Nodup := A.sorted.imp KeyOrder.ne_of_before

theorem countP_eq_zero_of_subset (h : ∀ a ∈ A, a ∈ B) : A.toList.countP (· ∉ B) = 0 := by
  rw [List.countP_eq_zero]
  intro a ha hgone
  exact of_decide_eq_true hgone (h a ha)

theorem countP_add_size_of_subset (h : ∀ a ∈ B, a ∈ A) :
    A.toList.countP (· ∉ B) + B.size = A.size := by
  have hkept : (A.toList.filter (· ∈ B)).Perm B.toList := by
    refine (List.perm_ext_iff_of_nodup (A.nodup_toList.filter _) B.nodup_toList).mpr fun a => ?_
    rw [List.mem_filter, decide_eq_true_eq]
    exact ⟨fun ha => ha.2, fun ha => ⟨h a ha, ha⟩⟩
  have hsplit := A.toList.length_eq_countP_add_countP (· ∈ B)
  rw [List.countP_eq_length_filter, hkept.length_eq] at hsplit
  simp only [decide_eq_true_eq] at hsplit
  rw [Table.size, Table.size, hsplit, Nat.add_comm]

/-- A set with one more address. -/
theorem size_eq_add_one {a : Address F} (h : ∀ b, b ∈ A ↔ b = a ∨ b ∈ B) (ha : a ∉ B) :
    A.size = B.size + 1 := by
  have hnodup : (a :: B.toList).Nodup := List.nodup_cons.mpr ⟨ha, B.nodup_toList⟩
  have hperm : A.toList.Perm (a :: B.toList) := by
    refine (List.perm_ext_iff_of_nodup A.nodup_toList hnodup).mpr fun b => ?_
    rw [List.mem_cons]
    exact h b
  exact hperm.length_eq

theorem eq_of_turnover_eq_zero (h : A.turnover B = 0) : B = A := by
  obtain ⟨hgone, hnew⟩ := Nat.add_eq_zero_iff.mp h
  rw [List.countP_eq_zero] at hgone hnew
  refine Table.eq_of_mem_iff fun a => ⟨fun ha => ?_, fun ha => ?_⟩
  · exact Decidable.byContradiction fun hne => hnew a ha (decide_eq_true hne)
  · exact Decidable.byContradiction fun hne => hgone a ha (decide_eq_true hne)

end AddressSet

namespace Tables

variable {T T' T'' : Tables F}

/-- The nodes that selected this one. -/
def advertised (T : Tables F) : AddressSet F where
  toList := T.selectors.toList.map (·.main)
  sorted := T.selectors.sorted.map _ fun _ _ h => h

theorem mem_advertised {a : Address F} : a ∈ T.advertised ↔ ∃ t ∈ T.selectors, t.main = a :=
  List.mem_map

theorem advertised_eq (h : T'.selectors = T.selectors) : T'.advertised = T.advertised :=
  Table.ext (congrArg (fun s => s.toList.map (·.main)) h)

/-- The number of the set counts how much the set changed. -/
def Renumbers (T T' : Tables F) : Prop :=
  T'.ansn = T.ansn + UInt16.ofNat (T.advertised.turnover T'.advertised)

/-- Selectors go, and each one renumbers the set. -/
structure Sheds (T T' : Tables F) : Prop where
  subset : ∀ a ∈ T'.advertised, a ∈ T.advertised
  ansn : T'.ansn + UInt16.ofNat T'.advertised.size = T.ansn + UInt16.ofNat T.advertised.size

/-- Selectors come, and each one renumbers the set. -/
structure Gains (T T' : Tables F) : Prop where
  subset : ∀ a ∈ T.advertised, a ∈ T'.advertised
  ansn : T'.ansn + UInt16.ofNat T.advertised.size = T.ansn + UInt16.ofNat T'.advertised.size

theorem Sheds.of_eq (hs : T'.advertised = T.advertised) (ha : T'.ansn = T.ansn) : Sheds T T' :=
  ⟨fun _ hb => hs ▸ hb, by rw [hs, ha]⟩

theorem Gains.of_eq (hs : T'.advertised = T.advertised) (ha : T'.ansn = T.ansn) : Gains T T' :=
  ⟨fun _ hb => hs.symm ▸ hb, by rw [hs, ha]⟩

theorem Sheds.refl (T : Tables F) : Sheds T T := .of_eq rfl rfl

theorem Sheds.trans (h : Sheds T T') (h' : Sheds T' T'') : Sheds T T'' :=
  ⟨fun a ha => h.subset a (h'.subset a ha), h'.ansn.trans h.ansn⟩

theorem Sheds.renumbers (h : Sheds T T') : Renumbers T T' := by
  have hsize := AddressSet.countP_add_size_of_subset h.subset
  rw [Renumbers, AddressSet.turnover, AddressSet.countP_eq_zero_of_subset h.subset, Nat.add_zero]
  exact SeqNum.eq_add_of_add_eq hsize h.ansn

theorem Gains.renumbers (h : Gains T T') : Renumbers T T' := by
  have hsize := AddressSet.countP_add_size_of_subset h.subset
  rw [Renumbers, AddressSet.turnover, AddressSet.countP_eq_zero_of_subset h.subset, Nat.zero_add]
  exact SeqNum.eq_add_of_add_eq hsize h.ansn

theorem Renumbers.of_eq (hs : T'.advertised = T.advertised) (ha : T'.ansn = T.ansn) : Renumbers T T' :=
  (Sheds.of_eq hs ha).renumbers

theorem mem_advertised_drop {a b : Address F} :
    b ∈ (T.drop (.selector a)).advertised ↔ b ∈ T.advertised ∧ b ≠ a := by
  rw [mem_advertised, mem_advertised]
  constructor
  · rintro ⟨t, ht, rfl⟩
    obtain ⟨hmem, hne⟩ := Table.mem_erase.mp ht
    exact ⟨⟨t, hmem, rfl⟩, hne⟩
  · rintro ⟨⟨t, ht, rfl⟩, hne⟩
    exact ⟨t, Table.mem_erase.mpr ⟨ht, hne⟩, rfl⟩

theorem mem_advertised_write {t : SelectorTuple F} {b : Address F} :
    b ∈ (T.write (.selector t)).advertised ↔ b = t.main ∨ b ∈ T.advertised := by
  rw [mem_advertised, mem_advertised]
  constructor
  · rintro ⟨u, hu, rfl⟩
    rcases Table.mem_insert.mp hu with rfl | ⟨hu, -⟩
    · exact .inl rfl
    · exact .inr ⟨u, hu, rfl⟩
  · intro hb
    by_cases hne : b = t.main
    · exact ⟨t, Table.mem_insert.mpr (.inl rfl), hne.symm⟩
    · obtain ⟨u, hu, rfl⟩ := hb.resolve_left hne
      exact ⟨u, Table.mem_insert.mpr (.inr ⟨hu, hne⟩), rfl⟩

/-- A selector that is dropped renumbers the set. -/
theorem sheds_drop {k : TupleKey F} (hk : (T.get? k).isSome = true) : Sheds T (T.drop k) := by
  cases k with
  | selector a =>
    have ha : a ∈ T.advertised := by
      obtain ⟨u, hu⟩ := Option.isSome_iff_exists.mp hk
      obtain ⟨t, ht, -⟩ := Option.map_eq_some_iff.mp hu
      obtain ⟨hmem, hmain⟩ := Table.get?_eq_some_iff.mp ht
      exact mem_advertised.mpr ⟨t, hmem, hmain⟩
    have hsize : T.advertised.size = (T.drop (.selector a)).advertised.size + 1 := by
      refine AddressSet.size_eq_add_one (a := a) (fun b => ?_) fun h => (mem_advertised_drop.mp h).2 rfl
      rw [mem_advertised_drop]
      constructor
      · intro hb
        by_cases hne : b = a
        · exact .inl hne
        · exact .inr ⟨hb, hne⟩
      · rintro (rfl | hb)
        · exact ha
        · exact hb.1
    refine ⟨fun b hb => (mem_advertised_drop.mp hb).1, ?_⟩
    rw [hsize]
    exact SeqNum.next_add _ _
  | _ => exact .of_eq rfl rfl

/-- A selector that is stored anew renumbers the set. -/
theorem gains_put {t : SelectorTuple F} (ht : T.selectors.get? t.main = none) :
    Gains T (T.put (.selector t)) := by
  have hmem (b : Address F) : b ∈ (T.put (.selector t)).advertised ↔ b = t.main ∨ b ∈ T.advertised :=
    mem_advertised_write
  have hnew : t.main ∉ T.advertised := by
    intro h
    obtain ⟨u, hu, he⟩ := mem_advertised.mp h
    exact Table.get?_eq_none_iff.mp ht u hu he
  refine ⟨fun b hb => (hmem b).mpr (.inr hb), ?_⟩
  rw [AddressSet.size_eq_add_one hmem hnew]
  exact SeqNum.next_add _ _

/-- A selector that is written over itself leaves the set alone. -/
theorem advertised_write {t u : SelectorTuple F} (hu : T.selectors.get? t.main = some u) :
    (T.write (.selector t)).advertised = T.advertised := by
  refine Table.eq_of_mem_iff fun b => ?_
  rw [mem_advertised_write, or_iff_right_iff_imp]
  rintro rfl
  obtain ⟨hmem, hmain⟩ := Table.get?_eq_some_iff.mp hu
  exact mem_advertised.mpr ⟨u, hmem, hmain⟩

end Tables

/-! ## Deeds -/

/-- Selectors come only where they are stored. -/
theorem Deed.sheds {now : Time} {r : Router F} {d : Deed F} (hd : d.part ≠ .stored .selector)
    (hf : d.Fits now r) : Tables.Sheds r.tables (d.onTables r.tables) := by
  cases d with
  | insert t => cases t <;> first | exact absurd rfl hd | exact .of_eq rfl rfl
  | refresh t =>
    cases t with
    | selector t =>
      obtain ⟨old, hold, -⟩ := hf
      obtain ⟨u, hu, -⟩ := Option.map_eq_some_iff.mp hold
      exact .of_eq (Tables.advertised_write hu) rfl
    | _ => exact .of_eq rfl rfl
  | erase k =>
    unfold onTables
    dsimp only
    split
    · rename_i hk
      exact Tables.sheds_drop hk
    · exact .refl _
  | _ => exact .of_eq rfl rfl

theorem Does.sheds {ps : List Part} {now : Time} {r r' : Router F} (h : Does ps now r r')
    (hp : .stored .selector ∉ ps) : Tables.Sheds r.tables r'.tables := by
  refine h.keep (P := fun r' => Tables.Sheds r.tables r'.tables) (fun r' d hd hf hr => ?_) (.refl _)
  rw [r'.perform_tables]
  exact hr.trans (Deed.sheds (fun he => hp (he ▸ hd)) hf)

/-- Deeds that do not concern selectors leave the set and its number alone. -/
theorem Does.advertisement_eq {ps : List Part} {now : Time} {r r' : Router F} (h : Does ps now r r')
    (hp : ∀ p ∈ ps, p.spares .selector = true) :
    r'.tables.advertised = r.tables.advertised ∧ r'.tables.ansn = r.tables.ansn := by
  refine ⟨Tables.advertised_eq (h.selectors_eq hp), h.ansn_eq (fun hmem => ?_) fun hmem => ?_⟩
  all_goals exact absurd (hp _ hmem) (by decide)

/-! ## Messages -/

namespace Reception

/-- The router once it has sensed the link that the message came over, if it is a HELLO that is taken
in. -/
def sensed (x : Reception F) (now : Time) : Router F :=
  match x.message.body with
  | .hello _ willingness blocks =>
    if x.message.ttl = 0 ∨ x.router.isLocal x.message.originator ∨ x.router.hasSeen x.message.key then
      x.router
    else x.router.senseHello x.message.validity.duration willingness blocks x.receiver x.sender now
  | .tc .. | .mid _ | .unknown .. => x.router

/-- How many selectors go and come with a message. -/
def turnover (x : Reception F) (now : Time) : Nat :=
  x.router.tables.advertised.turnover (x.sensed now).tables.advertised +
    (x.sensed now).tables.advertised.turnover (x.after now).tables.advertised

end Reception

namespace Router

/-- A HELLO that lists this node as relay stores its originator as selector. Any other leaves the
selectors alone. -/
theorem recordSelector_gains (r : Router F) (originator : Address F) (validity : Time)
    (blocks : List (HelloBlock F)) (now : Time) :
    Tables.Gains r.tables (r.recordSelector originator validity blocks now).tables := by
  unfold recordSelector
  split
  · split
    · rename_i t ht
      have hmain : t.main = originator := (Table.get?_eq_some_iff.mp ht).2
      have hstored : r.tables.selectors.get? t.main = some t := hmain.symm ▸ ht
      exact .of_eq (Tables.advertised_write hstored) rfl
    · rename_i hnone
      rw [onStore, Store.tables_insert]
      exact Tables.gains_put hnone
  · exact .of_eq rfl rfl

/-- Once the link is sensed, a HELLO brings its originator as selector at most. -/
theorem processHello_gains (r : Router F) (originator : Address F) (validity : Time) (w : Willingness)
    (blocks : List (HelloBlock F)) (receiver sender : Address F) (now : Time) :
    Tables.Gains (r.senseHello validity w blocks receiver sender now).tables
      (r.processHello originator validity w blocks receiver sender now).tables := by
  rw [processHello_eq]
  generalize r.senseHello validity w blocks receiver sender now = r₁
  have hd : Does _ now r₁ (r₁.recordNeighbourhood originator validity w blocks now) :=
    recordNeighbourhood_does ..
  generalize r₁.recordNeighbourhood originator validity w blocks now = r₂ at hd ⊢
  obtain ⟨hadv, hansn⟩ := hd.advertisement_eq (by decide)
  have h := r₂.recordSelector_gains originator validity blocks now
  refine ⟨fun a ha => h.subset a (hadv.symm ▸ ha), ?_⟩
  rw [← hadv, ← hansn]
  exact h.ansn

theorem process_advertisement {m : Message F} {r : Router F} (hlocal : r.isLocal m.originator = false)
    (hhello : m.body.isHello = false) (receiver sender : Address F) (now : Time) :
    (r.process m receiver sender now).tables.advertised = r.tables.advertised ∧
      (r.process m receiver sender now).tables.ansn = r.tables.ansn := by
  unfold process
  split
  · rename_i hbody
    rw [hbody] at hhello
    cases hhello
  · exact Does.advertisement_eq (processTc_does _ _ _ _ _ _) (by decide)
  · exact Does.advertisement_eq
      (processMid_does _ (ne_address_of_isLocal hlocal) _ _ _) (by decide)
  · exact ⟨rfl, rfl⟩

end Router

namespace Reception

theorem sensed_of_not_hello {x : Reception F} (h : x.message.body.isHello = false) (now : Time) :
    x.sensed now = x.router := by
  unfold sensed
  cases hbody : x.message.body with
  | hello =>
    rw [hbody] at h
    cases h
  | _ => rfl

theorem sensed_renumbers (x : Reception F) (now : Time) :
    Tables.Renumbers x.router.tables (x.sensed now).tables := by
  unfold sensed
  split
  · split
    · exact .of_eq rfl rfl
    · exact (Does.sheds (Router.senseHello_does _ _ _ _ _ _) (by decide)).renumbers
  all_goals exact .of_eq rfl rfl

theorem after_renumbers (x : Reception F) (now : Time) :
    Tables.Renumbers (x.sensed now).tables (x.after now).tables := by
  have hh := x.router.handleMessage_handles x.message x.receiver x.sender now
  have hafter : Router.handleMessage x.receiver x.sender now x.router x.message = x.after now := rfl
  rw [hafter] at hh
  generalize x.after now = r' at hh
  cases hh with
  | ignored h =>
    have hsensed : x.sensed now = x.router := by
      unfold sensed
      split
      · rw [if_pos h]
      all_goals rfl
    rw [hsensed]
    exact .of_eq rfl rfl
  | again _ _ _ hhello hf =>
    rw [sensed_of_not_hello hhello, hf.tables]
    exact .of_eq rfl rfl
  | greeted httl hlocal hnone hhello =>
    have hnew : ¬ (x.message.ttl = 0 ∨ x.router.isLocal x.message.originator = true ∨
        x.router.hasSeen x.message.key = true) := by
      rw [hlocal, Router.hasSeen_of_none hnone]
      simpa using httl
    unfold sensed Router.process
    cases hbody : x.message.body with
    | hello _ w blocks =>
      dsimp only
      rw [if_neg hnew]
      exact (Router.processHello_gains ..).renumbers
    | _ =>
      rw [hbody] at hhello
      cases hhello
  | first hlocal _ hhello hf =>
    obtain ⟨hadv, hansn⟩ := Router.process_advertisement hlocal hhello x.receiver x.sender now
    rw [sensed_of_not_hello hhello, hf.tables]
    exact .of_eq hadv hansn

/-- The number of the advertised set counts the selectors that go and come with a message. -/
theorem ansn_after (x : Reception F) (now : Time) :
    (x.after now).tables.ansn = x.router.tables.ansn + UInt16.ofNat (x.turnover now) := by
  rw [x.after_renumbers now, x.sensed_renumbers now, turnover, UInt16.ofNat_add, UInt16.add_assoc]

theorem advertised_after {x : Reception F} {now : Time} (h : x.turnover now = 0) :
    (x.after now).tables.advertised = x.router.tables.advertised := by
  obtain ⟨hsensed, hafter⟩ := Nat.add_eq_zero_iff.mp h
  rw [AddressSet.eq_of_turnover_eq_zero hafter, AddressSet.eq_of_turnover_eq_zero hsensed]

end Reception

/-! ## Operations -/

/-- How many selectors go and come in an operation. A stop does not count: it forgets them all, and
the number stays. -/
def Operation.turnover (now : Time) (r : Router F) (op : Operation F) : Nat :=
  match op with
  | stop => 0
  | packet .. => ((op.receptions now r).map (·.turnover now)).sum
  | start _ | timer _ | linkFailed _ | refresh _ =>
    r.tables.advertised.turnover (r.apply now op).tables.advertised

namespace Router

/-- How many selectors go and come while operations are carried out. -/
def turnover : Router F → List (Time × Operation F) → Nat
  | _, [] => 0
  | r, (now, op) :: ops => op.turnover now r + turnover (r.apply now op) ops

variable {now : Time} {r : Router F}

theorem foldl_handleMessage_ansn (r : Router F) (ms : List (Message F)) (receiver sender : Address F)
    (now : Time) :
    (ms.foldl (handleMessage receiver sender now) r).tables.ansn = r.tables.ansn +
      UInt16.ofNat (((r.receive receiver sender now ms).map (·.turnover now)).sum) := by
  induction ms generalizing r with
  | nil => exact (UInt16.add_zero _).symm
  | cons m ms ih =>
    have hm := Reception.ansn_after ⟨r, m, receiver, sender⟩ now
    have hafter : Reception.after ⟨r, m, receiver, sender⟩ now =
        handleMessage receiver sender now r m := rfl
    rw [hafter] at hm
    rw [List.foldl_cons, ih, hm, receive, List.map_cons, List.sum_cons, UInt16.ofNat_add, UInt16.add_assoc]

theorem foldl_handleMessage_advertised {receiver sender : Address F} {ms : List (Message F)}
    (h : ((r.receive receiver sender now ms).map (·.turnover now)).sum = 0) :
    (ms.foldl (handleMessage receiver sender now) r).tables.advertised = r.tables.advertised := by
  induction ms generalizing r with
  | nil => rfl
  | cons m ms ih =>
    rw [receive, List.map_cons, List.sum_cons] at h
    obtain ⟨hm, hms⟩ := Nat.add_eq_zero_iff.mp h
    rw [List.foldl_cons, ih hms]
    exact Reception.advertised_after hm

/-- Apart from packets and stops, selectors only go. -/
theorem apply_sheds {op : Operation F} (hop : op.isPacket = false) (hstop : op ≠ .stop) :
    Tables.Sheds r.tables (r.apply now op).tables := by
  have hs := r.apply_step now op
  generalize r.apply now op = r' at hs
  cases hs with
  | idle => exact .refl _
  | stop => exact absurd rfl hstop
  | packet => cases hop
  | start _ _ _ hd => exact hd.sheds (by decide)
  | refresh _ hd => exact hd.sheds (by decide)
  | linkFailed _ _ hd => exact hd.sheds (by decide)
  | hello _ _ _ hd | tc _ _ _ hd | mid _ _ _ hd => exact hd.sheds (by decide)
  | flush _ hd => exact hd.sheds (by decide)
  | expiry key generation _ hd =>
    refine .trans ?_ (hd.sheds (by decide))
    have ht := r.toStore.tables_expire key generation now
    split at ht
    · dsimp only
      rw [ht.2]
      exact Tables.sheds_drop (ht.1 ▸ rfl)
    all_goals
      dsimp only
      rw [ht]
      exact .refl _

theorem stop_tables (r : Router F) :
    r.stop.tables = r.tables ∨ r.stop.tables = .withAnsn r.tables.ansn := by
  cases hr : r.running with
  | true => exact .inr (by rw [stop_eq hr])
  | false => exact .inl (by rw [stop_of_not_running hr])

/-- The number of the advertised set counts the selectors that go and come in an operation. -/
theorem ansn_apply (r : Router F) (now : Time) (op : Operation F) :
    (r.apply now op).tables.ansn = r.tables.ansn + UInt16.ofNat (op.turnover now r) := by
  have hsheds (hop : op.isPacket = false) (hstop : op ≠ .stop) :
      Tables.Renumbers r.tables (r.apply now op).tables := (apply_sheds hop hstop).renumbers
  cases op with
  | stop =>
    rcases r.stop_tables with ht | ht <;> rw [apply, ht] <;> exact (UInt16.add_zero _).symm
  | packet id sender datagram =>
    rw [Operation.turnover]
    rcases r.apply_packet_cases now id sender datagram with
      ⟨he, hnone⟩ | ⟨receiver, p, -, -, -, he, hreceptions⟩
    · rw [he, hnone]
      exact (UInt16.add_zero _).symm
    · rw [he, updateRoutes_tables, hreceptions]
      exact foldl_handleMessage_ansn ..
  | _ => exact hsheds rfl (by rintro ⟨⟩)

/-- Without turnover the advertised set stays, unless the router stops. -/
theorem advertised_apply {op : Operation F} (h : op.turnover now r = 0) :
    (r.apply now op).tables.advertised = r.tables.advertised ∨
      (r.apply now op).tables.advertised = ∅ := by
  cases op with
  | stop =>
    rcases r.stop_tables with ht | ht <;> rw [apply, ht]
    · exact .inl rfl
    · exact .inr rfl
  | packet id sender datagram =>
    left
    rw [Operation.turnover] at h
    rcases r.apply_packet_cases now id sender datagram with
      ⟨he, -⟩ | ⟨receiver, p, -, -, -, he, hreceptions⟩
    · rw [he]
    · rw [hreceptions] at h
      rw [he, updateRoutes_tables]
      exact foldl_handleMessage_advertised h
  | _ => exact .inl (AddressSet.eq_of_turnover_eq_zero h)

/-! ## Runs -/

theorem ansn_run (r : Router F) (ops : List (Time × Operation F)) :
    (r.run ops).tables.ansn = r.tables.ansn + UInt16.ofNat (r.turnover ops) := by
  induction ops generalizing r with
  | nil => exact (UInt16.add_zero _).symm
  | cons op ops ih =>
    obtain ⟨now, op⟩ := op
    rw [run_cons, ih, ansn_apply, turnover, UInt16.ofNat_add, UInt16.add_assoc]

theorem advertised_run {ops : List (Time × Operation F)} (h : r.turnover ops = 0) :
    (r.run ops).tables.advertised = r.tables.advertised ∨ (r.run ops).tables.advertised = ∅ := by
  induction ops generalizing r with
  | nil => exact .inl rfl
  | cons op ops ih =>
    obtain ⟨now, op⟩ := op
    obtain ⟨hop, hops⟩ := Nat.add_eq_zero_iff.mp h
    rw [run_cons]
    rcases ih hops with hadv | hadv
    · rw [hadv]
      exact advertised_apply hop
    · exact .inr hadv

end Router

/-- The router generates a TC message in an operation. -/
def Operation.Advertises (now : Time) (r : Router F) (op : Operation F) (ansn : SeqNum)
    (neighbours : List (Address F)) : Prop :=
  ∃ m ∈ op.queued now r, m.originator = r.address ∧ m.body = .tc ansn neighbours

namespace Router

variable {now : Time} {r : Router F}

/-- A TC message advertises the set of selectors, which is not empty, under its number. -/
theorem eq_of_advertises {op : Operation F} {ansn : SeqNum} {neighbours : List (Address F)}
    (h : op.Advertises now r ansn neighbours) :
    op = .timer .tc ∧ ansn = r.tables.ansn ∧ neighbours = r.tables.advertised.toList ∧
      neighbours ≠ [] := by
  obtain ⟨m, hm, ho, hbody⟩ := h
  have hop : op.isPacket = false := by
    cases op with
    | packet id sender datagram => exact absurd ho ((r.packet_floods now id sender datagram).relays m hm).1
    | _ => rfl
  obtain ⟨-, ⟨-, hhello⟩ | ⟨htc, hne, hbody'⟩ | ⟨-, hmid⟩⟩ :=
    Operation.composes_of_mem_queued hop hm
  · rw [hbody] at hhello
    cases hhello
  · obtain ⟨rfl, rfl⟩ := Body.tc.inj (hbody.symm.trans hbody')
    refine ⟨htc, rfl, rfl, fun he => ?_⟩
    rw [Table.isEmpty, List.map_eq_nil_iff.mp he] at hne
    cases hne
  · cases hbody.symm.trans hmid

theorem advertises_tc (hr : r.running = true) (hne : r.tables.selectors.isEmpty = false) (now : Time) :
    Operation.Advertises now r (.timer .tc) r.tables.ansn r.tables.advertised.toList := by
  obtain ⟨m, hout, ho, hbody⟩ := Operation.tc_outbound hr hne now
  exact ⟨m, Operation.queued_of_outbound hout ▸ List.mem_cons_self, ho, hbody⟩

theorem tables_apply_tc (r : Router F) (now : Time) : (r.apply now (.timer .tc)).tables = r.tables := by
  have hs := r.apply_step now (.timer .tc)
  generalize r.apply now (.timer .tc) = r' at hs
  cases hs with
  | idle => rfl
  | tc _ _ _ hd => exact hd.tables_eq (by decide)

/-- Of two TC messages that a router generates, the later one has the number of the earlier one plus
the number of selectors that went and came between them. -/
theorem ansn_eq_add_turnover {now' : Time} {op op' : Operation F} {ops : List (Time × Operation F)}
    {ansn ansn' : SeqNum} {neighbours neighbours' : List (Address F)}
    (h : op.Advertises now r ansn neighbours)
    (h' : op'.Advertises now' ((r.apply now op).run ops) ansn' neighbours') :
    ansn' = ansn + UInt16.ofNat ((r.apply now op).turnover ops) ∧
      ((r.apply now op).turnover ops < 65536 → ansn' = ansn → neighbours' = neighbours) ∧
      (1 ≤ (r.apply now op).turnover ops → (r.apply now op).turnover ops ≤ 32767 →
        SeqNum.newer ansn' ansn = true) := by
  obtain ⟨rfl, rfl, rfl, -⟩ := eq_of_advertises h
  obtain ⟨-, rfl, rfl, hne⟩ := eq_of_advertises h'
  have hansn := (r.apply now (.timer .tc)).ansn_run ops
  rw [tables_apply_tc] at hansn
  refine ⟨hansn, fun hlt he => ?_, fun hpos hle => ?_⟩
  · have hzero := SeqNum.eq_zero_of_add_eq hlt (hansn.symm.trans he)
    rcases advertised_run hzero with hadv | hadv
    · rw [hadv, tables_apply_tc]
    · rw [hadv] at hne
      exact absurd rfl hne
  · rw [hansn]
    exact SeqNum.newer_add hpos hle

/-- The router that 10.0.0.2 selected as relay. -/
def selected : Router .ipv4 := sample.apply 0 repeatedTc

/-- A stop, and a start after which 10.0.0.2 selects the router anew. -/
def reselection : List (Time × Operation .ipv4) := [(1, .stop), (2, sampleStart), (3, repeatedTc)]

theorem ansn_eq_add_turnover_reselection :
    Operation.Advertises 0 selected (.timer .tc) 0 [.ofNat 0x0a000002] ∧
      Operation.Advertises 4 ((selected.apply 0 (.timer .tc)).run reselection) (.timer .tc) 1
        [.ofNat 0x0a000002] ∧
      (selected.apply 0 (.timer .tc)).turnover reselection = 1 ∧
      (1 : SeqNum) = 0 + UInt16.ofNat ((selected.apply 0 (.timer .tc)).turnover reselection) ∧
      SeqNum.newer 1 0 = true := by
  have h : Operation.Advertises 0 selected (.timer .tc) 0 [.ofNat 0x0a000002] := by
    have hansn : selected.tables.ansn = 0 := by decide +kernel
    have hadv : selected.tables.advertised.toList = [.ofNat 0x0a000002] := by decide +kernel
    exact hansn ▸ hadv ▸ advertises_tc (by decide +kernel) (by decide +kernel) 0
  have h' : Operation.Advertises 4 ((selected.apply 0 (.timer .tc)).run reselection) (.timer .tc) 1
      [.ofNat 0x0a000002] := by
    have hansn : ((selected.apply 0 (.timer .tc)).run reselection).tables.ansn = 1 := by decide +kernel
    have hadv : ((selected.apply 0 (.timer .tc)).run reselection).tables.advertised.toList =
        [.ofNat 0x0a000002] := by decide +kernel
    exact hansn ▸ hadv ▸ advertises_tc (by decide +kernel) (by decide +kernel) 4
  have hone : (selected.apply 0 (.timer .tc)).turnover reselection = 1 := by decide +kernel
  obtain ⟨hansn, -, hnewer⟩ := ansn_eq_add_turnover h h'
  exact ⟨h, h', hone, hansn, hnewer (Nat.le_of_eq hone.symm) (hone ▸ by decide)⟩

end Router

end Manet
