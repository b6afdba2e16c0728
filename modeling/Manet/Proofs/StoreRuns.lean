import Manet.Proofs.AdvertisedSet
import Manet.Proofs.Attendance

/-!
# Runs of the store

`StoreOperation` is everything that may be done to a store, in any order and with any timer brought
back at any time. However it was used, a timer is armed for each tuple that can expire and for no
other key, it was asked for and not cancelled (`Store.IsSound`), and only the armed timer of a key
leads to anything (`Store.withstands`). The advertised set is renumbered for each selector that
comes or goes, but not when the store is cleared.
-/

namespace Manet

variable {F : Family}

/-! ## Tuples that satisfy a predicate -/

namespace Tables

variable {T : Tables F}

/-- The tuples of a kind. -/
def ofKind (T : Tables F) : TupleKind → List (TimedTuple F)
  | .link => T.links.toList.map .link
  | .twoHop => T.twoHops.toList.map .twoHop
  | .selector => T.selectors.toList.map .selector
  | .topology => T.topology.toList.map .topology
  | .association => T.associations.toList.map .association
  | .duplicate => T.duplicates.toList.map .duplicate

/-- The keys of the tuples of a kind that satisfy `p`. -/
def matchingKeys (T : Tables F) (kind : TupleKind) (p : TimedTuple F → Bool) : List (TupleKey F) :=
  ((T.ofKind kind).filter p).map (·.key)

theorem mem_ofKind {kind : TupleKind} {t : TimedTuple F} :
    t ∈ T.ofKind kind ↔ t.key.kind = kind ∧ T.get? t.key = some t := by
  cases kind <;> cases t <;>
    simp [ofKind, TimedTuple.key, TupleKey.kind, get?, Table.get?_eq_some_iff, Table.mem_toList, Keyed.key]

theorem mem_matchingKeys {kind : TupleKind} {p : TimedTuple F → Bool} {k : TupleKey F} :
    k ∈ T.matchingKeys kind p ↔ k.kind = kind ∧ (T.get? k).any p = true := by
  simp only [matchingKeys, List.mem_map, List.mem_filter, mem_ofKind, Option.any_eq_true]
  constructor
  · rintro ⟨t, ⟨⟨hkind, hget⟩, hp⟩, rfl⟩
    exact ⟨hkind, t, hget, hp⟩
  · rintro ⟨hkind, t, hget, hp⟩
    obtain rfl := key_of_get? hget
    exact ⟨t, ⟨⟨hkind, hget⟩, hp⟩, rfl⟩

end Tables

/-! ## What may be done to a store -/

/-- Something that may be done to a store. -/
inductive StoreOperation (F : Family) where
  | insert (t : TimedTuple F) (now : Time)
  | erase (k : TupleKey F)
  /-- Erases the tuples of a kind that satisfy a predicate. -/
  | eraseMatching (kind : TupleKind) (p : TimedTuple F → Bool)
  | rearm (k : TupleKey F) (now : Time)
  /-- Writes a tuple over the one with its key. -/
  | change (t : TimedTuple F)
  /-- Brings back a timer, whether it was asked for or not. -/
  | expire (k : TupleKey F) (generation : Nat) (now : Time)
  | clear

/-- The one key that an operation is about. -/
def StoreOperation.key? : StoreOperation F → Option (TupleKey F)
  | insert t _ | change t => some t.key
  | erase k | rearm k _ | expire k _ _ => some k
  | eraseMatching .. | clear => none

namespace Store

/-- Removes the tuples of a kind that satisfy `p`. -/
def eraseMatching (s : Store F) (kind : TupleKind) (p : TimedTuple F → Bool) : Store F :=
  s.eraseAll (s.tables.matchingKeys kind p)

/-- Carries out an operation. -/
def apply (s : Store F) : StoreOperation F → Store F
  | .insert t now => s.insert t now
  | .erase k => s.erase k
  | .eraseMatching kind p => s.eraseMatching kind p
  | .rearm k now => s.rearm k now
  | .change t => s.overwrite t
  | .expire k generation now => (s.expire k generation now).2
  | .clear => s.clear

/-- Carries out operations one after the other. -/
def run (s : Store F) (ops : List (StoreOperation F)) : Store F := ops.foldl apply s

end Store

/-- Only a stored tuple is changed in place, and it can expire if it could before. -/
def StoreOperation.IsProper (s : Store F) : StoreOperation F → Prop
  | change t => ∃ old, s.tables.get? t.key = some old ∧ t.time.isSome = old.time.isSome
  | insert .. | erase .. | eraseMatching .. | rearm .. | expire .. | clear => True

/-- Each operation is proper when it is carried out. -/
def Store.Admits : Store F → List (StoreOperation F) → Prop
  | _, [] => True
  | s, op :: ops => op.IsProper s ∧ (s.apply op).Admits ops

/-! ## Armed timers -/

/-- The host was asked for an armed timer, and not to forget it. -/
def Journal.Awaits (j : Journal F) (a : Armed F) : Prop :=
  (∃ delay, Call.schedule a.handle delay (.expiry a.key a.generation) ∈ j.calls) ∧
    Call.cancel a.handle ∉ j.calls

theorem Journal.isTimeless_mem (c : Call F) : IsTimeless fun j : Journal F => c ∈ j.calls :=
  ⟨fun _ _ h => Array.mem_push_of_mem _ h, fun _ h => Array.mem_push_of_mem _ h⟩

/-- The armed timers are awaited, each under a handle of its own. -/
structure TimerBook.Stands (book : TimerBook F) (j : Journal F) : Prop where
  awaits : ∀ a ∈ book.armed, j.Awaits a
  handle_le : ∀ a ∈ book.armed, a.handle ≤ j.issued
  handle_inj : ∀ a ∈ book.armed, ∀ b ∈ book.armed, a.handle = b.handle → a = b
  cancel_le : ∀ handle, Call.cancel handle ∈ j.calls → handle ≤ j.issued

namespace TimerBook.Stands

variable {book book' : TimerBook F} {j : Journal F}

theorem mono (h : book.Stands j) (hsub : ∀ a ∈ book'.armed, a ∈ book.armed) : book'.Stands j where
  awaits a ha := h.awaits a (hsub a ha)
  handle_le a ha := h.handle_le a (hsub a ha)
  handle_inj a ha b hb := h.handle_inj a (hsub a ha) b (hsub b hb)
  cancel_le := h.cancel_le

theorem cancel (h : book.Stands j) {a : Armed F} (ha : a ∈ book.armed)
    (hsub : ∀ b ∈ book'.armed, b ∈ book.armed ∧ b ≠ a) : book'.Stands (j.call (.cancel a.handle)) where
  awaits b hb := by
    obtain ⟨hb, hne⟩ := hsub b hb
    obtain ⟨⟨delay, hasked⟩, hkept⟩ := h.awaits b hb
    refine ⟨⟨delay, Array.mem_push_of_mem _ hasked⟩, fun hc => ?_⟩
    rcases Array.mem_push.mp hc with hc | hc
    · exact hkept hc
    · exact hne (h.handle_inj b hb a ha (Call.cancel.inj hc))
  handle_le b hb := h.handle_le b (hsub b hb).1
  handle_inj b hb c hc := h.handle_inj b (hsub b hb).1 c (hsub c hc).1
  cancel_le handle hc := by
    rcases Array.mem_push.mp hc with hc | hc
    · exact h.cancel_le handle hc
    · exact Call.cancel.inj hc ▸ h.handle_le a ha

theorem schedule (h : book.Stands j) {k : TupleKey F} {generation : Nat} (delay : Time)
    (hsub : ∀ a ∈ book'.armed, a = ⟨k, j.nextHandle, generation⟩ ∨ a ∈ book.armed) :
    book'.Stands (j.schedule delay (.expiry k generation)) := by
  have hnew {handle : Handle} (hc : Call.cancel handle ∈ (j.schedule delay (.expiry k generation)).calls) :
      Call.cancel handle ∈ j.calls := (Array.mem_push.mp hc).resolve_right nofun
  have hle {a : Armed F} (ha : a ∈ book.armed) : a.handle < j.nextHandle :=
    Nat.lt_succ_of_le (h.handle_le a ha)
  constructor
  · intro a ha
    rcases hsub a ha with rfl | ha
    · refine ⟨⟨delay, Array.mem_push_self⟩, fun hc => ?_⟩
      exact Nat.not_succ_le_self _ (h.cancel_le _ (hnew hc))
    · obtain ⟨⟨delay', hasked⟩, hkept⟩ := h.awaits a ha
      exact ⟨⟨delay', Array.mem_push_of_mem _ hasked⟩, fun hc => hkept (hnew hc)⟩
  · intro a ha
    rcases hsub a ha with rfl | ha
    · exact Nat.le_refl _
    · exact Nat.le_of_lt (hle ha)
  · intro a ha b hb he
    rcases hsub a ha with rfl | ha <;> rcases hsub b hb with rfl | hb
    · rfl
    · exact absurd he (Nat.ne_of_gt (hle hb))
    · exact absurd he (Nat.ne_of_lt (hle ha))
    · exact h.handle_inj a ha b hb he
  · exact fun handle hc => Nat.le_succ_of_le (h.cancel_le handle (hnew hc))

variable {s : Store F}

theorem disarm (h : s.book.Stands s.journal) (k : TupleKey F) :
    (s.disarm k).book.Stands (s.disarm k).journal := by
  unfold Store.disarm
  split
  · exact h
  · rename_i a ha
    obtain ⟨ha, hk⟩ := Table.get?_eq_some_iff.mp ha
    refine h.cancel ha fun b hb => ?_
    obtain ⟨hb, hne⟩ := Table.mem_erase.mp hb
    exact ⟨hb, fun he => hne (he ▸ hk)⟩

theorem arm (h : s.book.Stands s.journal) (k : TupleKey F) (delay : Time) :
    (s.arm k delay).book.Stands (s.arm k delay).journal :=
  (h.disarm k).schedule delay fun _ ha => (Table.mem_insert.mp ha).imp_right And.left

theorem rearm (h : s.book.Stands s.journal) (k : TupleKey F) (now : Time) :
    (s.rearm k now).book.Stands (s.rearm k now).journal := by
  unfold Store.rearm
  split
  · exact h.arm k _
  · exact h

theorem insert (h : s.book.Stands s.journal) (t : TimedTuple F) (now : Time) :
    (s.insert t now).book.Stands (s.insert t now).journal := by
  show (s.watch t.key (t.deadline now) now).book.Stands (s.watch t.key (t.deadline now) now).journal
  unfold Store.watch
  split
  · exact h.arm t.key _
  · exact h.disarm t.key

theorem erase (h : s.book.Stands s.journal) (k : TupleKey F) :
    (s.erase k).book.Stands (s.erase k).journal := by
  unfold Store.erase
  split
  · exact h
  · exact h.disarm k

theorem expire (h : s.book.Stands s.journal) (k : TupleKey F) (generation : Nat) (now : Time) :
    (s.expire k generation now).2.book.Stands (s.expire k generation now).2.journal := by
  have hfired : TimerBook.Stands { s.book with armed := s.book.armed.erase k } s.journal :=
    h.mono fun a ha => (Table.mem_erase.mp ha).1
  unfold Store.expire
  split
  · dsimp only
    split
    · exact hfired
    · split
      · exact hfired
      · exact rearm (s := { s with book := { s.book with armed := s.book.armed.erase k } }) hfired k now
  · exact h

theorem clear (h : s.book.Stands s.journal) : s.clear.book.Stands s.clear.journal := by
  have hcalls : s.clear.journal.issued = s.journal.issued ∧
      ∀ handle, Call.cancel handle ∈ s.clear.journal.calls → handle ≤ s.journal.issued := by
    refine List.foldlRecOn (motive := fun j : Journal F => j.issued = s.journal.issued ∧
      ∀ handle, Call.cancel handle ∈ j.calls → handle ≤ s.journal.issued) s.book.armed.toList
      (fun j a => j.call (.cancel a.handle)) ⟨rfl, h.cancel_le⟩ fun j hj a ha => ⟨hj.1, fun handle hc => ?_⟩
    rcases Array.mem_push.mp hc with hc | hc
    · exact hj.2 handle hc
    · exact Call.cancel.inj hc ▸ h.handle_le a ha
  exact ⟨nofun, nofun, nofun, fun handle hc => hcalls.1.symm ▸ hcalls.2 handle hc⟩

end TimerBook.Stands

/-! ## Sound stores -/

/-- A tuple needs to be looked at again only later than it is valid. -/
theorem TimedTuple.lt_deadline {t : TimedTuple F} {now e due : Time} (he : t.time = some e)
    (hlt : now < e) (hd : t.deadline now = some due) : now < due := by
  cases t with
  | link t =>
    cases hd
    cases he
    split
    · rename_i hsymmetric
      exact Nat.lt_min.mpr ⟨hlt, of_decide_eq_true hsymmetric⟩
    · exact hlt
  | _ => exact Option.some.inj (he.symm.trans hd) ▸ hlt

/-- A timer is armed for each tuple that can expire and for no other key, and the host knows it. -/
structure Store.IsSound (s : Store F) : Prop where
  watched : s.Watched
  stands : s.book.Stands s.journal

namespace Store

variable {s : Store F}

theorem rearm_cases (s : Store F) (k : TupleKey F) (now : Time) :
    s.rearm k now = s ∨ ∃ t, s.tables.get? k = some t ∧ t.time.isSome = true := by
  unfold rearm
  split
  · rename_i due hdue
    obtain ⟨t, ht, hd⟩ := Option.bind_eq_some_iff.mp hdue
    refine .inr ⟨t, ht, ?_⟩
    rw [← t.isSome_deadline now, hd]
    rfl
  · exact .inl rfl

/-- Only the armed timer of a key leads to anything. -/
theorem expire_of_ne {k : TupleKey F} {generation : Nat} (now : Time)
    (h : ∀ a, s.book.armed.get? k = some a → a.generation ≠ generation) :
    s.expire k generation now = (.stale, s) := by
  rw [expire, if_neg]
  rw [Option.any_eq_true]
  rintro ⟨a, ha, hg⟩
  exact h a ha (of_decide_eq_true hg)

theorem IsSound.empty : (∅ : Store F).IsSound where
  watched k := by
    cases k <;> rfl
  stands := ⟨nofun, nofun, nofun, fun _ hc => absurd hc (Array.not_mem_empty _)⟩

theorem Watched.eraseAll (h : s.Watched) (ks : List (TupleKey F)) : (s.eraseAll ks).Watched :=
  List.foldlRecOn ks Store.erase h fun _ hs k _ => hs.erase k

theorem IsSound.apply (h : s.IsSound) {op : StoreOperation F} (hop : op.IsProper s) : (s.apply op).IsSound := by
  cases op with
  | insert t now => exact ⟨h.watched.insert t now, h.stands.insert t now⟩
  | erase k => exact ⟨h.watched.erase k, h.stands.erase k⟩
  | eraseMatching kind p =>
    exact ⟨h.watched.eraseAll _, List.foldlRecOn (motive := fun s' : Store F => s'.book.Stands s'.journal)
      (s.tables.matchingKeys kind p) Store.erase h.stands fun _ hs k _ => hs.erase k⟩
  | rearm k now =>
    refine ⟨show (s.rearm k now).Watched from ?_, h.stands.rearm k now⟩
    rcases s.rearm_cases k now with he | ⟨t, ht, htime⟩
    · rw [he]
      exact h.watched
    · exact Watched.rearm ht htime (fun k' _ => h.watched k') now
  | change t =>
    obtain ⟨old, hold, htime⟩ := hop
    exact ⟨h.watched.overwrite hold htime, h.stands⟩
  | expire k generation now =>
    refine ⟨show (s.expire k generation now).2.Watched from ?_, h.stands.expire k generation now⟩
    by_cases hg : ∃ a, s.book.armed.get? k = some a ∧ a.generation = generation
    · obtain ⟨a, ha, rfl⟩ := hg
      exact h.watched.expire ha now
    · rw [expire_of_ne now fun a ha he => hg ⟨a, ha, he⟩]
      exact h.watched
  | clear => exact ⟨fun k => by cases k <;> rfl, h.stands.clear⟩

theorem IsSound.run (h : s.IsSound) {ops : List (StoreOperation F)} (hops : s.Admits ops) :
    (s.run ops).IsSound := by
  induction ops generalizing s with
  | nil => exact h
  | cons op ops ih => exact ih (h.apply hops.1) hops.2

/-! ## Other keys -/

theorem armed_rearm_of_ne {k k' : TupleKey F} (hk : k' ≠ k) (now : Time) :
    (s.rearm k now).book.armed.get? k' = s.book.armed.get? k' := by
  unfold rearm
  split
  · rw [armed_arm, if_neg (Ne.symm hk)]
  · rfl

theorem armed_insert_of_ne {t : TimedTuple F} {k : TupleKey F} (hk : k ≠ t.key) (now : Time) :
    (s.insert t now).book.armed.get? k = s.book.armed.get? k := by
  rw [book_insert]
  unfold watch
  split
  · rw [armed_arm, if_neg (Ne.symm hk)]
  · rw [armed_disarm, if_neg hk]

theorem armed_erase_of_ne {k k' : TupleKey F} (hk : k' ≠ k) :
    (s.erase k).book.armed.get? k' = s.book.armed.get? k' := by
  unfold erase
  split
  · rfl
  · exact (s.armed_disarm k k').trans (if_neg hk)

theorem expire_of_key_ne {k k' : TupleKey F} (hk : k' ≠ k) (generation : Nat) (now : Time) :
    (s.expire k generation now).2.tables.get? k' = s.tables.get? k' ∧
      (s.expire k generation now).2.book.armed.get? k' = s.book.armed.get? k' := by
  have hfired : (s.book.armed.erase k).get? k' = s.book.armed.get? k' :=
    (Table.get?_erase ..).trans (if_neg hk)
  unfold expire
  split
  · dsimp only
    split
    · exact ⟨rfl, hfired⟩
    · split
      · exact ⟨(Tables.get?_drop ..).trans (if_neg hk), hfired⟩
      · exact ⟨by rw [tables_rearm], (armed_rearm_of_ne hk now).trans hfired⟩
  · exact ⟨rfl, rfl⟩

/-- An operation on one key leaves the tuples and timers of all others alone. -/
theorem apply_of_key_ne {op : StoreOperation F} {k k' : TupleKey F} (hop : op.key? = some k) (hk : k' ≠ k) :
    (s.apply op).tables.get? k' = s.tables.get? k' ∧
      (s.apply op).book.armed.get? k' = s.book.armed.get? k' := by
  cases op with
  | insert t now =>
    cases hop
    exact ⟨(s.get?_insert t now k').trans (if_neg (Ne.symm hk)), armed_insert_of_ne hk now⟩
  | erase k =>
    cases hop
    exact ⟨(s.get?_erase k k').trans (if_neg hk), armed_erase_of_ne hk⟩
  | rearm k now =>
    cases hop
    exact ⟨congrArg (·.get? k') (s.tables_rearm k now), armed_rearm_of_ne hk now⟩
  | change t =>
    cases hop
    exact ⟨(s.get?_overwrite t k').trans (if_neg (Ne.symm hk)), rfl⟩
  | expire k generation now =>
    cases hop
    exact expire_of_key_ne hk generation now
  | eraseMatching | clear => cases hop

/-! ## Tuples that are erased together -/

theorem Watched.exists_of_armed (h : s.Watched) {k : TupleKey F} {a : Armed F}
    (ha : s.book.armed.get? k = some a) : ∃ t e, s.tables.get? k = some t ∧ t.time = some e := by
  have hsome := h k
  rw [ha] at hsome
  obtain ⟨e, he⟩ := Option.isSome_iff_exists.mp hsome.symm
  obtain ⟨t, ht, hte⟩ := Option.bind_eq_some_iff.mp he
  exact ⟨t, e, ht, hte⟩

theorem armed_erase (h : s.Watched) (k k' : TupleKey F) :
    (s.erase k).book.armed.get? k' = if k' = k then none else s.book.armed.get? k' := by
  by_cases hk : k' = k
  · have hnone := h.erase k k'
    rw [get?_erase, if_pos hk] at hnone
    rw [if_pos hk, ← Option.not_isSome_iff_eq_none, hnone]
    exact Bool.false_ne_true
  · rw [if_neg hk, armed_erase_of_ne hk]

theorem armed_eraseAll (h : s.Watched) (ks : List (TupleKey F)) (k : TupleKey F) :
    (s.eraseAll ks).book.armed.get? k = if k ∈ ks then none else s.book.armed.get? k := by
  induction ks generalizing s with
  | nil => rfl
  | cons k' ks ih =>
    rw [eraseAll, List.foldl_cons, ← eraseAll, ih (h.erase k'), armed_erase h]
    by_cases hk : k = k' <;> by_cases hks : k ∈ ks <;> simp [hk, hks]

/-- The timers of erased tuples are cancelled. -/
theorem cancel_mem_eraseAll (h : s.Watched) {ks : List (TupleKey F)} {a : Armed F} {k : TupleKey F}
    (ha : s.book.armed.get? k = some a) (hk : k ∈ ks) :
    Call.cancel a.handle ∈ (s.eraseAll ks).journal.calls := by
  induction ks generalizing s with
  | nil => cases hk
  | cons k' ks ih =>
    rw [eraseAll, List.foldl_cons, ← eraseAll]
    by_cases hkk : k = k'
    · subst hkk
      obtain ⟨t, -, ht, -⟩ := h.exists_of_armed ha
      have hcancel : Call.cancel a.handle ∈ (s.erase k).journal.calls := by
        rw [Store.erase, ht, disarm, ha]
        exact Array.mem_push_self
      exact List.foldlRecOn (motive := fun s' : Store F => Call.cancel a.handle ∈ s'.journal.calls)
        ks Store.erase hcancel fun _ hs k _ => (Journal.isTimeless_mem _).erase hs k
    · refine ih (h.erase k') ?_ ((List.mem_cons.mp hk).resolve_left hkk)
      rw [armed_erase_of_ne hkk, ha]

/-- Erasing the matching tuples of a kind removes these with their timers, and nothing else. -/
def ErasesMatching (s : Store F) (kind : TupleKind) (p : TimedTuple F → Bool) : Prop :=
  let s' := s.eraseMatching kind p
  ∀ k, if k.kind = kind ∧ (s.tables.get? k).any p = true then
      s'.tables.get? k = none ∧ s'.book.armed.get? k = none ∧
        ∀ a, s.book.armed.get? k = some a → Call.cancel a.handle ∈ s'.journal.calls
    else s'.tables.get? k = s.tables.get? k ∧ s'.book.armed.get? k = s.book.armed.get? k

theorem Watched.erasesMatching (h : s.Watched) (kind : TupleKind) (p : TimedTuple F → Bool) :
    s.ErasesMatching kind p := by
  intro k
  have ht := s.get?_eraseAll (s.tables.matchingKeys kind p) k
  have ha := armed_eraseAll h (s.tables.matchingKeys kind p) k
  split
  · rename_i hk
    have hmem := Tables.mem_matchingKeys.mpr hk
    rw [if_pos hmem] at ht ha
    exact ⟨ht, ha, fun a hget => cancel_mem_eraseAll h hget hmem⟩
  · rename_i hk
    have hmem := fun hmem => hk (Tables.mem_matchingKeys.mp hmem)
    rw [if_neg hmem] at ht ha
    exact ⟨ht, ha⟩

/-! ## Timers that fire -/

/-- What the armed timer of a key leads to at `now`: its tuple goes if its time has come, else a new
timer is armed that is due later. -/
def Answers (s : Store F) (a : Armed F) (now : Time) : Prop :=
  ∃ t e, s.tables.get? a.key = some t ∧ t.time = some e ∧
    (e ≤ now → s.expire a.key a.generation now =
      (.expired t, { s with
        tables := s.tables.drop a.key
        book := { s.book with armed := s.book.armed.erase a.key } })) ∧
    (now < e → ∃ due, now < due ∧ s.expire a.key a.generation now =
      (.pending, { s with
        book :=
          { armed := (s.book.armed.erase a.key).insert ⟨a.key, s.journal.nextHandle, s.book.generation + 1⟩
            generation := s.book.generation + 1 }
        journal := s.journal.schedule (due - now) (.expiry a.key (s.book.generation + 1)) }))

theorem arm_of_not_armed {k : TupleKey F} (h : s.book.armed.get? k = none) (delay : Time) :
    s.arm k delay =
      { s with
        book :=
          { armed := s.book.armed.insert ⟨k, s.journal.nextHandle, s.book.generation + 1⟩
            generation := s.book.generation + 1 }
        journal := s.journal.schedule delay (.expiry k (s.book.generation + 1)) } := by
  rw [arm, disarm, h]

theorem Watched.answers (h : s.Watched) {k : TupleKey F} {a : Armed F} (ha : s.book.armed.get? k = some a)
    (now : Time) : s.Answers a now := by
  have hk : a.key = k := (Table.get?_eq_some_iff.mp ha).2
  subst hk
  obtain ⟨t, ht, htime, hcases⟩ := Store.expire_cases h ha now
  obtain ⟨e, he⟩ := Option.isSome_iff_exists.mp htime
  refine ⟨t, e, ht, he, ?_⟩
  rcases hcases with ⟨hexpired, hs⟩ | ⟨hvalid, hs⟩
  · have hle : e ≤ now := by
      rw [TimedTuple.isExpired, he] at hexpired
      exact of_decide_eq_true hexpired
    exact ⟨fun _ => hs, fun hlt => absurd hle (Nat.not_le.mpr hlt)⟩
  · have hlt : now < e := by
      rw [TimedTuple.isExpired, he] at hvalid
      exact Nat.not_le.mp (of_decide_eq_false hvalid)
    obtain ⟨due, hdue⟩ := Option.isSome_iff_exists.mp ((t.isSome_deadline now).trans htime)
    refine ⟨fun hle => absurd hlt (Nat.not_lt.mpr hle), fun _ => ⟨due, t.lt_deadline he hlt hdue, ?_⟩⟩
    rw [hs, rearm_eq_arm (s := { s with book := { s.book with armed := s.book.armed.erase a.key } }) ht hdue,
      arm_of_not_armed]
    exact (Table.get?_erase ..).trans (if_pos rfl)

end Store

/-! ## The number of the advertised set -/

/-- How many selectors an operation brings. One that is stored already is brought again. -/
def StoreOperation.brings : StoreOperation F → Nat
  | insert (.selector _) _ => 1
  | _ => 0

/-- How many selectors an operation brings and removes. -/
def StoreOperation.turnover (s : Store F) (op : StoreOperation F) : Nat :=
  op.brings + s.tables.advertised.toList.countP (· ∉ (s.apply op).tables.advertised)

namespace Store

variable {s : Store F}

/-- How many selectors operations bring and remove. Clearing the store does not count. -/
def turnover : Store F → List (StoreOperation F) → Nat
  | _, [] => 0
  | s, .clear :: ops => turnover s.clear ops
  | s, op :: ops => op.turnover s + turnover (s.apply op) ops

theorem sheds_erase (s : Store F) (k : TupleKey F) : s.tables.Sheds (s.erase k).tables := by
  rw [tables_erase]
  split
  · rename_i hk
    exact Tables.sheds_drop hk
  · exact .refl _

theorem sheds_eraseAll (s : Store F) (ks : List (TupleKey F)) : s.tables.Sheds (s.eraseAll ks).tables :=
  List.foldlRecOn (motive := fun s' : Store F => s.tables.Sheds s'.tables) ks Store.erase (.refl _)
    fun s' hs k _ => hs.trans (s'.sheds_erase k)

theorem sheds_expire (s : Store F) (k : TupleKey F) (generation : Nat) (now : Time) :
    s.tables.Sheds (s.expire k generation now).2.tables := by
  have ht := s.tables_expire k generation now
  split at ht
  · rw [ht.2]
    exact Tables.sheds_drop (by rw [ht.1]; rfl)
  · rw [ht]
    exact .refl _
  · rw [ht]
    exact .refl _

theorem ansn_of_sheds {op : StoreOperation F} (h : s.tables.Sheds (s.apply op).tables) (hop : op.brings = 0) :
    (s.apply op).tables.ansn = s.tables.ansn + UInt16.ofNat (op.turnover s) := by
  have hr := h.renumbers
  rwa [Tables.Renumbers, AddressSet.turnover, AddressSet.countP_eq_zero_of_subset h.subset, Nat.add_zero,
    ← Nat.zero_add (List.countP _ _), ← hop] at hr

/-- A selector that is stored renumbers the set, and no other goes. -/
theorem ansn_insert_selector (s : Store F) (t : SelectorTuple F) (now : Time) :
    (s.apply (.insert (.selector t) now)).tables.ansn =
      s.tables.ansn + UInt16.ofNat ((StoreOperation.insert (.selector t) now).turnover s) := by
  have ht : (s.apply (.insert (.selector t) now)).tables = s.tables.put (.selector t) :=
    s.tables_insert (.selector t) now
  have hgone : s.tables.advertised.toList.countP (· ∉ (s.tables.put (.selector t)).advertised) = 0 :=
    AddressSet.countP_eq_zero_of_subset fun a ha => Tables.mem_advertised_write.mpr (.inr ha)
  rw [StoreOperation.turnover, ht, hgone]
  rfl

/-- The set is renumbered for each selector that comes or goes, unless the store is cleared. -/
theorem ansn_apply {op : StoreOperation F} (hop : op.IsProper s) (hclear : op ≠ .clear) :
    (s.apply op).tables.ansn = s.tables.ansn + UInt16.ofNat (op.turnover s) := by
  cases op with
  | insert t now =>
    have ht : (s.apply (.insert t now)).tables = s.tables.put t := s.tables_insert t now
    cases t with
    | selector t => exact s.ansn_insert_selector t now
    | _ => exact ansn_of_sheds (ht.symm ▸ .of_eq rfl rfl) rfl
  | erase k => exact ansn_of_sheds (s.sheds_erase k) rfl
  | eraseMatching kind p => exact ansn_of_sheds (s.sheds_eraseAll _) rfl
  | rearm k now => exact ansn_of_sheds ((s.tables_rearm k now).symm ▸ .refl _) rfl
  | change t =>
    refine ansn_of_sheds ?_ rfl
    obtain ⟨old, hold, -⟩ := hop
    cases t with
    | selector t =>
      obtain ⟨u, hu, -⟩ := Option.map_eq_some_iff.mp hold
      exact .of_eq (Tables.advertised_write hu) rfl
    | _ => exact .of_eq rfl rfl
  | expire k generation now => exact ansn_of_sheds (s.sheds_expire k generation now) rfl
  | clear => exact absurd rfl hclear

theorem ansn_run {ops : List (StoreOperation F)} (hops : s.Admits ops) :
    (s.run ops).tables.ansn = s.tables.ansn + UInt16.ofNat (s.turnover ops) := by
  induction ops generalizing s with
  | nil => exact (UInt16.add_zero _).symm
  | cons op ops ih =>
    have hrest := ih hops.2
    by_cases hclear : op = .clear
    · subst hclear
      exact hrest
    · have hturnover : s.turnover (op :: ops) = op.turnover s + (s.apply op).turnover ops := by
        cases op <;> first | rfl | exact absurd rfl hclear
      rw [hturnover, UInt16.ofNat_add, ← UInt16.add_assoc, ← ansn_apply hops.1 hclear]
      exact hrest

/-! ## Any run -/

/-- The store withstands whatever timers are brought back. After any operations a timer is armed for
each tuple with a deadline and for no other key, and it was asked for and not cancelled. A timer of
another generation changes nothing; the armed one removes its tuple if the time has come, and else the
tuple gets a timer that is due later. An operation on one key leaves all others alone, and erasing the
matching tuples removes these with their timers. The advertised set is renumbered for each selector
that comes or goes one by one, and keeps its number when the store is cleared. -/
theorem withstands (ops : List (StoreOperation F)) (hops : (∅ : Store F).Admits ops) :
    let s := (∅ : Store F).run ops
    (∀ k now, s.hasTimer k = ((s.tables.get? k).bind (·.deadline now)).isSome) ∧
    (∀ k a, s.book.armed.get? k = some a → a.key = k ∧ s.journal.Awaits a) ∧
    (∀ k generation now, (∀ a, s.book.armed.get? k = some a → a.generation ≠ generation) →
      s.expire k generation now = (.stale, s)) ∧
    (∀ k a now, s.book.armed.get? k = some a → s.Answers a now) ∧
    (∀ op k k', op.key? = some k → k' ≠ k → (s.apply op).tables.get? k' = s.tables.get? k' ∧
      (s.apply op).book.armed.get? k' = s.book.armed.get? k') ∧
    (∀ kind p, s.ErasesMatching kind p) ∧
    (∀ op, op.IsProper s → op ≠ .clear →
      (s.apply op).tables.ansn = s.tables.ansn + UInt16.ofNat (op.turnover s)) ∧
    s.clear.tables.ansn = s.tables.ansn ∧
    s.tables.ansn = .initial + UInt16.ofNat ((∅ : Store F).turnover ops) := by
  have hs : ((∅ : Store F).run ops).IsSound := IsSound.empty.run hops
  refine ⟨fun k now => ?_, fun k a ha => ?_, fun k generation now => expire_of_ne now,
    fun k a now ha => hs.watched.answers ha now, fun op k k' hop hk => apply_of_key_ne hop hk,
    hs.watched.erasesMatching, fun op hop hclear => ansn_apply hop hclear, rfl, ansn_run hops⟩
  · rw [hasTimer, Table.contains_eq_isSome, hs.watched k]
    cases ((∅ : Store F).run ops).tables.get? k with
    | none => rfl
    | some t => exact (t.isSome_deadline now).symm
  · obtain ⟨hmem, hk⟩ := Table.get?_eq_some_iff.mp ha
    exact ⟨hk, hs.stands.awaits a hmem⟩

/-- That 10.0.0.2 leads to 10.0.0.4 was heard at 0 s and again, and the first timer fired at 15 s. -/
def refreshedTopology : List (StoreOperation .ipv4) :=
  [.insert (.topology ⟨.ofNat 0x0a000004, .ofNat 0x0a000002, 1, .ofSeconds 15⟩) 0,
    .change (.topology ⟨.ofNat 0x0a000004, .ofNat 0x0a000002, 1, .ofSeconds 20⟩),
    .expire (.topology (.ofNat 0x0a000004) (.ofNat 0x0a000002)) 1 (.ofSeconds 15)]

theorem withstands_refreshedTopology :
    let s := (∅ : Store .ipv4).run refreshedTopology
    let k := TupleKey.topology (.ofNat 0x0a000004) (.ofNat 0x0a000002)
    (∅ : Store .ipv4).Admits refreshedTopology ∧
      s.book.armed.get? k = some ⟨k, 2, 2⟩ ∧ s.journal.Awaits ⟨k, 2, 2⟩ ∧
      s.expire k 1 (.ofSeconds 20) = (.stale, s) ∧ s.Answers ⟨k, 2, 2⟩ (.ofSeconds 20) := by
  intro s k
  have hops : (∅ : Store .ipv4).Admits refreshedTopology :=
    ⟨trivial, ⟨_, rfl, rfl⟩, trivial, trivial⟩
  have harmed : s.book.armed.get? k = some ⟨k, 2, 2⟩ := by decide +kernel
  obtain ⟨-, hawaits, hstale, hanswers, -⟩ := withstands refreshedTopology hops
  refine ⟨hops, harmed, (hawaits k _ harmed).2, hstale k 1 _ fun a ha => ?_, hanswers k _ _ harmed⟩
  cases harmed.symm.trans ha
  decide

/-- A store that is cleared loses its selectors and keeps the number of their set. -/
theorem not_renumbered_by_clear :
    ¬ ∀ (ops : List (StoreOperation .ipv4)) (op : StoreOperation .ipv4), (∅ : Store .ipv4).Admits ops →
      op.IsProper ((∅ : Store .ipv4).run ops) →
      (((∅ : Store .ipv4).run ops).apply op).tables.ansn = ((∅ : Store .ipv4).run ops).tables.ansn +
        UInt16.ofNat (op.turnover ((∅ : Store .ipv4).run ops)) := by
  intro h
  have hclear := h [.insert (.selector ⟨.ofNat 0x0a000002, .ofSeconds 6⟩) 0] .clear ⟨trivial, trivial⟩ trivial
  exact absurd hclear (by decide +kernel)

end Store

end Manet
