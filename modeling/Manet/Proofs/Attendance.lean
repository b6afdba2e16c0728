import Manet.Proofs.KnownTimers

/-!
# Timers that watch over tuples

`Store.Watched`: a timer is armed for each tuple that can expire, and for nothing else.
`Router.Attends` is what holds between two deeds of a router: it knows the pending timers, its
tuples are watched, and a flush is pending while messages wait. `Attends.does` carries it along
deeds, and `Store.expire_cases` says what an armed timer leads to when it fires.
-/

namespace Manet

variable {F : Family}

/-! ## Which tuples have a timer -/

/-- A timer is armed for each tuple that can expire, and for nothing else. -/
def Store.Watched (s : Store F) : Prop :=
  ∀ k, (s.book.armed.get? k).isSome = ((s.tables.get? k).bind (·.time)).isSome

namespace Store.Watched

variable {s : Store F}

theorem insert (h : s.Watched) (t : TimedTuple F) (now : Time) : (s.insert t now).Watched := by
  intro k
  rw [get?_insert, book_insert]
  cases hd : t.deadline now with
  | none =>
    have ht : t.time = none := by
      rw [← Option.not_isSome_iff_eq_none, ← t.isSome_deadline now, hd]
      exact Bool.false_ne_true
    rw [show s.watch t.key none now = s.disarm t.key from rfl, armed_disarm]
    by_cases hk : k = t.key
    · rw [if_pos hk, if_pos hk.symm, Option.bind_some, ht]
      rfl
    · rw [if_neg hk, if_neg (Ne.symm hk), h k]
  | some due =>
    have ht : t.time.isSome = true := by
      rw [← t.isSome_deadline now, hd]
      rfl
    rw [show s.watch t.key (some due) now = s.arm t.key (due - now) from rfl, armed_arm]
    by_cases hk : t.key = k
    · rw [if_pos hk, if_pos hk, Option.bind_some, ht]
      rfl
    · rw [if_neg hk, if_neg hk, h k]

theorem overwrite (h : s.Watched) {t old : TimedTuple F} (ho : s.tables.get? t.key = some old)
    (ht : t.time.isSome = old.time.isSome) : (s.overwrite t).Watched := by
  intro k
  rw [get?_overwrite, show (s.overwrite t).book = s.book from rfl, h k]
  by_cases hk : t.key = k
  · rw [if_pos hk, ← hk, ho, Option.bind_some, Option.bind_some, ht]
  · rw [if_neg hk]

theorem erase (h : s.Watched) (k : TupleKey F) : (s.erase k).Watched := by
  cases ht : s.tables.get? k with
  | none =>
    have he : s.erase k = s := by rw [Store.erase, ht]
    rwa [he]
  | some t =>
    intro k'
    rw [get?_erase, book_erase ht, armed_disarm]
    by_cases hk : k' = k
    · rw [if_pos hk, if_pos hk]
      rfl
    · rw [if_neg hk, if_neg hk, h k']

/-- It does not matter to an arming what was armed before. -/
theorem rearm {k : TupleKey F} {t : TimedTuple F} (hk : s.tables.get? k = some t)
    (ht : t.time.isSome = true)
    (h : ∀ k', k' ≠ k →
      (s.book.armed.get? k').isSome = ((s.tables.get? k').bind (·.time)).isSome) (now : Time) :
    (s.rearm k now).Watched := by
  obtain ⟨due, hd⟩ : ∃ due, t.deadline now = some due :=
    Option.isSome_iff_exists.mp ((t.isSome_deadline now).trans ht)
  intro k'
  rw [rearm_eq_arm hk hd, armed_arm, tables_arm]
  by_cases hkk : k = k'
  · rw [if_pos hkk, ← hkk, hk, Option.bind_some, ht]
    rfl
  · rw [if_neg hkk, h k' (Ne.symm hkk)]

end Store.Watched

/-! ## Deeds -/

namespace Router

/-- The pending timers are exact as far as tuples and waiting messages are concerned. -/
structure Attends (now : Time) (A : Alarms F) (r : Router F) : Prop extends Knows now A r where
  watched : r.toStore.Watched
  queued : r.flushTimer.isSome = !r.outbound.isEmpty
  lasting : ∀ k t, r.tables.get? k = some t → t.LastsOnlyFor r.address

namespace Attends

variable {now : Time} {A : Alarms F} {r : Router F}

/-- A refreshed tuple can expire if it could before, and does not last. -/
theorem isSome_time_of_renews {self : Address F} {T : Tables F} {t old : TimedTuple F}
    (ho : T.get? t.key = some old) (hr : t.Renews self old) (hl : old.LastsOnlyFor self) :
    t.time.isSome = old.time.isSome ∧ t.LastsOnlyFor self := by
  have hk : old.key = t.key := Tables.key_of_get? ho
  cases t <;> cases old <;> try cases hk
  all_goals try exact ⟨rfl, trivial⟩
  rename_i t old
  obtain ⟨ht, hm, hs⟩ := hr
  refine ⟨?_, fun hn => ?_⟩
  · show t.time.isSome = old.time.isSome
    rw [ht]
    cases hot : old.time with
    | none => exact absurd (hm.trans (hl hot)) hs
    | some e => rfl
  · rw [hn] at ht
    cases ht

/-- Still only associations with this node last, when one tuple more is written that agrees. -/
theorem lasting_of_written (h : Attends now A r) {t : TimedTuple F} (ht : t.LastsOnlyFor r.address)
    {T : Tables F} (hT : ∀ k, T.get? k = if t.key = k then some t else r.tables.get? k) :
    ∀ k u, T.get? k = some u → u.LastsOnlyFor r.address := by
  intro k u hu
  rw [hT] at hu
  split at hu
  · exact Option.some.inj hu ▸ ht
  · exact h.lasting k u hu

theorem insert (h : Attends now A r) {t : TimedTuple F} (ht : t.LastsOnlyFor r.address)
    (now' : Time) : Attends now A (r.onStore (·.insert t now')) :=
  ⟨h.toKnows.insert t now', h.watched.insert t now', h.queued,
    h.lasting_of_written ht (Store.get?_insert _ t now')⟩

theorem refresh (h : Attends now A r) {t old : TimedTuple F} (ho : r.tables.get? t.key = some old)
    (hr : t.Renews r.address old) : Attends now A (r.onStore (·.overwrite t)) := by
  obtain ⟨ht, hl⟩ := isSome_time_of_renews ho hr (h.lasting _ _ ho)
  exact ⟨h.toKnows.congr rfl rfl rfl, h.watched.overwrite ho ht, h.queued,
    h.lasting_of_written hl (Store.get?_overwrite _ t)⟩

theorem erase (h : Attends now A r) (k : TupleKey F) : Attends now A (r.onStore (·.erase k)) := by
  refine ⟨h.toKnows.erase k, h.watched.erase k, h.queued, fun k' u hu => ?_⟩
  rw [onStore, Store.get?_erase] at hu
  split at hu
  · cases hu
  · exact h.lasting k' u hu

/-- A link that is marked as lost is armed anew. -/
theorem mark (h : Attends now A r) (t : LinkTuple F) : Attends now A (r.perform now (.mark t)) := by
  have hwritten (k : TupleKey F) : (r.toStore.overwrite (.link t)).tables.get? k =
      if (TimedTuple.link t).key = k then some (.link t) else r.tables.get? k :=
    Store.get?_overwrite ..
  have htables : (r.perform now (.mark t)).tables = (r.toStore.overwrite (.link t)).tables :=
    Store.tables_rearm ..
  have hknows : Knows now A (r.onStore (·.overwrite (.link t))) := h.toKnows.congr rfl rfl rfl
  have hlasts : (TimedTuple.link t).LastsOnlyFor r.address := trivial
  refine ⟨hknows.rearm _ now, ?_, h.queued, htables ▸ h.lasting_of_written hlasts hwritten⟩
  refine Store.Watched.rearm ((hwritten _).trans (if_pos rfl)) rfl (fun k hk => ?_) now
  rw [hwritten, if_neg (Ne.symm hk)]
  exact h.watched k

theorem perform (h : Attends now A r) {d : Deed F} (hd : d.Fits now r) :
    Attends now A (r.perform now d) := by
  cases d with
  | note n => exact { h with toKnows := h.toKnows.congr rfl rfl rfl }
  | tell c =>
    refine { h with toKnows := h.toKnows.congr ?_ rfl rfl }
    rw [show (r.perform now (.tell c)).journal = r.journal.call c from rfl, Journal.pending_call]
    cases c <;> first | rfl | cases hd
  | loss main =>
    exact { h with toKnows := h.toKnows.congr (Journal.pending_call r.journal now A _) rfl rfl }
  | send id packet =>
    exact { h with toKnows := h.toKnows.congr (Journal.pending_call r.journal now A _) rfl rfl }
  | insert t => exact h.insert hd.2.2 now
  | refresh t =>
    obtain ⟨old, ho, hr⟩ := hd
    exact h.refresh ho hr
  | erase k => exact h.erase k
  | mark t => exact h.mark t
  | neighbours table => exact ⟨h.toKnows.congr rfl rfl rfl, h.watched, h.queued, h.lasting⟩
  | relays mprs => exact ⟨h.toKnows.congr rfl rfl rfl, h.watched, h.queued, h.lasting⟩
  | routes =>
    obtain ⟨j, hj, hr⟩ := r.updateRoutes_eq now
    obtain ⟨hp, hi⟩ := hr.pending_eq now A
    rw [Router.perform, hj]
    exact ⟨h.toKnows.congr hp hi rfl, h.watched, h.queued, h.lasting⟩
  | enqueue m =>
    have hne : (r.outbound ++ [m]).isEmpty = false := by simp
    rcases r.enqueue_cases m with ⟨hf, he⟩ | ⟨hf, delay, entropy, he⟩ <;> rw [Router.perform, he]
    · exact ⟨h.toKnows.congr rfl rfl rfl, h.watched, by rw [hne, hf]; rfl, h.lasting⟩
    · refine ⟨h.toKnows.schedule (τ := .flush) hf rfl ?_, h.watched, by rw [hne]; rfl, h.lasting⟩
      funext τ
      cases τ <;> rfl
  | numberMessage s => exact { h with toKnows := h.toKnows.congr rfl rfl rfl }
  | numberPacket s => exact { h with toKnows := h.toKnows.congr rfl rfl rfl }

theorem does {ps : List Part} {r' : Router F} (h : Attends now A r) (hd : Does ps now r r') :
    Attends now A r' :=
  hd.keep (fun _ _ _ hf h => h.perform hf) h

/-- What concerns neither timers nor tuples nor waiting messages. -/
theorem congr {A' : Alarms F} {r' : Router F} (h : Attends now A r) (hk : Knows now A' r')
    (hs : r'.toStore.Watched) (ht : r'.tables = r.tables) (ha : r'.address = r.address)
    (hf : r'.flushTimer = r.flushTimer) (ho : r'.outbound = r.outbound) : Attends now A' r' :=
  ⟨hk, hs, by rw [hf, ho]; exact h.queued, by rw [ht, ha]; exact h.lasting⟩

end Attends

end Router

/-! ## Timers of tuples that fire -/

/-- An armed timer finds its tuple, and removes it or is armed anew. -/
theorem Store.expire_cases {s : Store F} (h : s.Watched) {k : TupleKey F} {a : Armed F}
    (ha : s.book.armed.get? k = some a) (now : Time) :
    ∃ t, s.tables.get? k = some t ∧ t.time.isSome = true ∧
      (t.isExpired now = true ∧ s.expire k a.generation now =
        (.expired t, { s with
          book := { s.book with armed := s.book.armed.erase k }, tables := s.tables.drop k }) ∨
      t.isExpired now = false ∧ s.expire k a.generation now =
        (.pending, { s with book := { s.book with armed := s.book.armed.erase k } }.rearm k now)) := by
  have hw : ((s.tables.get? k).bind (·.time)).isSome = true := by
    rw [← h k, ha]
    rfl
  obtain ⟨e, he⟩ := Option.isSome_iff_exists.mp hw
  obtain ⟨t, ht, hte⟩ := Option.bind_eq_some_iff.mp he
  refine ⟨t, ht, by rw [hte]; rfl, ?_⟩
  have hg : ((s.book.armed.get? k).any fun a' => a'.generation = a.generation) = true := by
    simp [ha]
  rw [expire, if_pos hg]
  dsimp only
  rw [ht]
  cases hx : t.isExpired now with
  | true => exact .inl ⟨rfl, if_pos hx⟩
  | false => exact .inr ⟨rfl, if_neg (hx ▸ Bool.false_ne_true)⟩

theorem Store.Watched.expire {s : Store F} (h : s.Watched) {k : TupleKey F} {a : Armed F}
    (ha : s.book.armed.get? k = some a) (now : Time) :
    (s.expire k a.generation now).2.Watched := by
  have ho : ∀ k', k' ≠ k → ((s.book.armed.erase k).get? k').isSome =
      ((s.tables.get? k').bind (·.time)).isSome := fun k' hk => by
    rw [Table.get?_erase, if_neg hk, h k']
  obtain ⟨t, ht, hti, ⟨-, he⟩ | ⟨-, he⟩⟩ := Store.expire_cases h ha now
  · rw [he]
    intro k'
    show ((s.book.armed.erase k).get? k').isSome = (((s.tables.drop k).get? k').bind (·.time)).isSome
    rw [Tables.get?_drop]
    by_cases hk : k' = k
    · rw [if_pos hk, Table.get?_erase, if_pos hk]
      rfl
    · rw [if_neg hk, ho k' hk]
  · rw [he]
    exact Store.Watched.rearm (s := { s with book := { s.book with armed := s.book.armed.erase k } })
      ht hti ho now

end Manet
