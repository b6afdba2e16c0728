import Manet.Store

/-!
# What the store holds

The operations of the store by what they do to look-ups: `get?_insert` and `get?_erase` for tuples,
`armed_disarm` and `armed_arm` for the timers that watch over them.
-/

namespace Manet

variable {F : Family}

/-! ## Tuples under their keys -/

namespace Tables

variable {T : Tables F}

theorem get?_key_link {k : Address F × Address F} {t : LinkTuple F} (h : T.links.get? k = some t) :
    T.get? (.link t.iface t.neighbour) = some (.link t) := by
  rw [get?, show (t.iface, t.neighbour) = k from (Table.get?_eq_some_iff.mp h).2, h]
  rfl

theorem get?_key_twoHop {k : Address F × Address F} {t : TwoHopTuple F}
    (h : T.twoHops.get? k = some t) : T.get? (.twoHop t.neighbour t.twoHop) = some (.twoHop t) := by
  rw [get?, show (t.neighbour, t.twoHop) = k from (Table.get?_eq_some_iff.mp h).2, h]
  rfl

theorem get?_key_selector {k : Address F} {t : SelectorTuple F}
    (h : T.selectors.get? k = some t) : T.get? (.selector t.main) = some (.selector t) := by
  rw [get?, show t.main = k from (Table.get?_eq_some_iff.mp h).2, h]
  rfl

theorem get?_key_topology {k : Address F × Address F} {t : TopologyTuple F}
    (h : T.topology.get? k = some t) : T.get? (.topology t.dest t.last) = some (.topology t) := by
  rw [get?, show (t.dest, t.last) = k from (Table.get?_eq_some_iff.mp h).2, h]
  rfl

theorem get?_key_association {k : Address F} {t : AssociationTuple F}
    (h : T.associations.get? k = some t) : T.get? (.association t.iface) = some (.association t) := by
  rw [get?, show t.iface = k from (Table.get?_eq_some_iff.mp h).2, h]
  rfl

theorem get?_key_duplicate {k : Address F × SeqNum} {t : DuplicateTuple F}
    (h : T.duplicates.get? k = some t) :
    T.get? (.duplicate t.originator t.seqno) = some (.duplicate t) := by
  rw [get?, show (t.originator, t.seqno) = k from (Table.get?_eq_some_iff.mp h).2, h]
  rfl

theorem key_of_get? {k : TupleKey F} {t : TimedTuple F} (h : T.get? k = some t) : t.key = k := by
  cases k <;>
  · obtain ⟨u, hu, rfl⟩ := Option.map_eq_some_iff.mp h
    have hk := (Table.get?_eq_some_iff.mp hu).2
    cases hk
    rfl

theorem mem_links_of_get? {k : TupleKey F} {l : LinkTuple F} (h : T.get? k = some (.link l)) :
    l ∈ T.links := by
  obtain rfl := key_of_get? h
  obtain ⟨l', hl, he⟩ := Option.map_eq_some_iff.mp h
  obtain rfl := TimedTuple.link.inj he
  exact (Table.get?_eq_some_iff.mp hl).1

end Tables

theorem TimedTuple.isSome_deadline (t : TimedTuple F) (now : Time) :
    (t.deadline now).isSome = t.time.isSome := by
  cases t <;> rfl

namespace Store

variable (s : Store F)

/-! ## Timers -/

@[simp] theorem tables_disarm (k : TupleKey F) : (s.disarm k).tables = s.tables := by
  unfold disarm
  split <;> rfl

@[simp] theorem tables_arm (k : TupleKey F) (delay : Time) : (s.arm k delay).tables = s.tables :=
  tables_disarm s k

@[simp] theorem tables_watch (k : TupleKey F) (deadline : Option Time) (now : Time) :
    (s.watch k deadline now).tables = s.tables := by
  cases deadline with
  | none => exact tables_disarm s k
  | some due => exact tables_arm s k (due - now)

theorem armed_disarm (k k' : TupleKey F) :
    (s.disarm k).book.armed.get? k' = if k' = k then none else s.book.armed.get? k' := by
  unfold disarm
  split
  · rename_i h
    split
    · rename_i hk
      rw [hk, h]
    · rfl
  · exact Table.get?_erase ..

theorem armed_arm (k : TupleKey F) (delay : Time) (k' : TupleKey F) :
    (s.arm k delay).book.armed.get? k' =
      if k = k' then some ⟨k, (s.disarm k).journal.nextHandle, (s.disarm k).book.generation + 1⟩
      else s.book.armed.get? k' := by
  show ((s.disarm k).book.armed.insert _).get? k' = _
  rw [Table.get?_insert, armed_disarm]
  by_cases h : k = k'
  · rw [show Keyed.key _ = k from rfl, if_pos h, if_pos h]
  · rw [show Keyed.key _ = k from rfl, if_neg h, if_neg h, if_neg (Ne.symm h)]

/-- A tuple with an end gets a timer for its deadline. -/
theorem rearm_eq_arm {s : Store F} {k : TupleKey F} {t : TimedTuple F} {now due : Time}
    (hk : s.tables.get? k = some t) (hd : t.deadline now = some due) :
    s.rearm k now = s.arm k (due - now) := by
  rw [rearm, hk, Option.bind_some, hd]

@[simp] theorem tables_rearm (k : TupleKey F) (now : Time) :
    (s.rearm k now).tables = s.tables := by
  unfold rearm
  split
  · exact tables_arm ..
  · rfl

/-! ## Tuples -/

theorem tables_insert (t : TimedTuple F) (now : Time) :
    (s.insert t now).tables = s.tables.put t := by
  show (s.watch t.key (t.deadline now) now).tables.put t = s.tables.put t
  rw [tables_watch]

theorem get?_insert (t : TimedTuple F) (now : Time) (k : TupleKey F) :
    (s.insert t now).tables.get? k = if t.key = k then some t else s.tables.get? k := by
  rw [tables_insert, Tables.get?_put]

theorem get?_overwrite (t : TimedTuple F) (k : TupleKey F) :
    (s.overwrite t).tables.get? k = if t.key = k then some t else s.tables.get? k :=
  Tables.get?_write ..

theorem tables_erase (k : TupleKey F) :
    (s.erase k).tables = if (s.tables.get? k).isSome then s.tables.drop k else s.tables := by
  unfold erase
  split <;> rename_i h <;> rw [h]
  · rfl
  · exact congrArg (Tables.drop · k) (tables_disarm s k)

theorem get?_erase (k k' : TupleKey F) :
    (s.erase k).tables.get? k' = if k' = k then none else s.tables.get? k' := by
  rw [tables_erase]
  cases h : s.tables.get? k with
  | none =>
    by_cases hk : k' = k
    · rw [if_pos hk, hk]
      exact h
    · rw [if_neg hk]
      rfl
  | some t => exact Tables.get?_drop ..

theorem get?_eraseAll (ks : List (TupleKey F)) (k : TupleKey F) :
    (s.eraseAll ks).tables.get? k = if k ∈ ks then none else s.tables.get? k := by
  induction ks generalizing s with
  | nil => rfl
  | cons k' ks ih =>
    rw [eraseAll, List.foldl_cons, ← eraseAll, ih, get?_erase]
    by_cases hk : k = k' <;> by_cases hks : k ∈ ks <;> simp [hk, hks]

/-- A timer that fired removes the tuple that it answers with, and no other. -/
theorem tables_expire (k : TupleKey F) (generation : Nat) (now : Time) :
    match (s.expire k generation now).1 with
    | .expired t =>
      s.tables.get? k = some t ∧ (s.expire k generation now).2.tables = s.tables.drop k
    | .pending | .stale => (s.expire k generation now).2.tables = s.tables := by
  by_cases hg : (s.book.armed.get? k).any fun a => a.generation = generation
  · rw [expire, if_pos hg]
    dsimp only
    cases ht : s.tables.get? k with
    | none => rfl
    | some t =>
      dsimp only
      cases t.isExpired now with
      | true => exact ⟨rfl, rfl⟩
      | false => exact tables_rearm ..
  · rw [expire, if_neg hg]

variable {s} in
/-- A timer that fired leaves the tuples alone that are valid for good. -/
theorem get?_expire_of_lasting {k : TupleKey F} {t : TimedTuple F} (h : s.tables.get? k = some t)
    (ht : t.time = none) (k' : TupleKey F) (generation : Nat) (now : Time) :
    (s.expire k' generation now).2.tables.get? k = some t := by
  unfold expire
  split
  · dsimp only
    split
    · exact h
    · rename_i t' ht'
      split
      · rename_i hexpired
        rw [Tables.get?_drop, if_neg, h]
        rintro rfl
        obtain rfl : t = t' := Option.some.inj (h.symm.trans ht')
        rw [TimedTuple.isExpired, ht] at hexpired
        cases hexpired
      · rw [tables_rearm, h]
  · exact h

variable {s} in
/-- A timer that fired brings no tuples. -/
theorem get?_of_get?_expire {k : TupleKey F} {t : TimedTuple F} {k' : TupleKey F}
    {generation : Nat} {now : Time} (h : (s.expire k' generation now).2.tables.get? k = some t) :
    s.tables.get? k = some t := by
  have ht := s.tables_expire k' generation now
  split at ht
  · rw [ht.2, Tables.get?_drop] at h
    split at h
    · cases h
    · exact h
  all_goals
    rw [ht] at h
    exact h

theorem journal_insert (t : TimedTuple F) (now : Time) :
    (s.insert t now).journal = (s.watch t.key (t.deadline now) now).journal := rfl

theorem book_insert (t : TimedTuple F) (now : Time) :
    (s.insert t now).book = (s.watch t.key (t.deadline now) now).book := rfl

theorem book_erase {s : Store F} {k : TupleKey F} {t : TimedTuple F}
    (h : s.tables.get? k = some t) : (s.erase k).book = (s.disarm k).book := by
  rw [erase, h]

end Store

/-! ## The journal -/

/-- A property of journals that asking for timers and cancelling them keeps. -/
structure Journal.IsTimeless (P : Journal F → Prop) : Prop where
  schedule {j : Journal F} (delay : Time) (timer : Timer F) : P j → P (j.schedule delay timer)
  cancel {j : Journal F} (handle : Handle) : P j → P (j.call (.cancel handle))

namespace Journal.IsTimeless

variable {P : Journal F → Prop} {s : Store F}

theorem disarm (hP : IsTimeless P) (h : P s.journal) (k : TupleKey F) :
    P (s.disarm k).journal := by
  unfold Store.disarm
  split
  · exact h
  · exact hP.cancel _ h

theorem arm (hP : IsTimeless P) (h : P s.journal) (k : TupleKey F) (delay : Time) :
    P (s.arm k delay).journal :=
  hP.schedule _ _ (hP.disarm h k)

theorem rearm (hP : IsTimeless P) (h : P s.journal) (k : TupleKey F) (now : Time) :
    P (s.rearm k now).journal := by
  unfold Store.rearm
  split
  · exact hP.arm h k _
  · exact h

theorem insert (hP : IsTimeless P) (h : P s.journal) (t : TimedTuple F) (now : Time) :
    P (s.insert t now).journal := by
  rw [Store.journal_insert]
  unfold Store.watch
  split
  · exact hP.arm h _ _
  · exact hP.disarm h _

theorem erase (hP : IsTimeless P) (h : P s.journal) (k : TupleKey F) :
    P (s.erase k).journal := by
  unfold Store.erase
  split
  · exact h
  · exact hP.disarm h k

theorem expire (hP : IsTimeless P) (h : P s.journal) (k : TupleKey F) (generation : Nat)
    (now : Time) : P (s.expire k generation now).2.journal := by
  unfold Store.expire
  split
  · dsimp only
    split
    · exact h
    · split
      · exact h
      · exact rearm (s := { s with book := { s.book with armed := s.book.armed.erase k } }) hP h k now
  · exact h

end Journal.IsTimeless

end Manet
