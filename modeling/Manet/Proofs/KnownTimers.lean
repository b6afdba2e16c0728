import Manet.Proofs.Hosted

/-!
# Timers that a router knows

The host keeps the pending timers, and the router keeps the handles under which it can cancel them.
`Router.Knows` says that the two agree: a pending timer has its handle with the router, and every
handle there is that of a pending timer. Each operation of the store keeps it so (`Knows.arm`,
`Knows.disarm` and what is made of them).
-/

namespace Manet

variable {F : Family}

/-! ## Who knows a pending timer -/

/-- The handle that `own` gives to each timer, and `x` for the timer `τ`. -/
def withHandle (own : Timer F → Option Handle) (τ : Timer F) (x : Option Handle) :
    Timer F → Option Handle :=
  fun τ' => if τ' = τ then x else own τ'

/-- The pending timers are those that have a handle. -/
def Alarms.Matches (A : Alarms F) (own : Timer F → Option Handle) : Prop :=
  ∀ h τ, (∃ due, A.get? h = some ⟨h, due, τ⟩) ↔ own τ = some h

namespace Alarms.Matches

variable {A : Alarms F} {own : Timer F → Option Handle} {τ : Timer F} {h : Handle}

theorem eq_of_handle (hm : A.Matches own) {τ' : Timer F} (ho : own τ = some h)
    (ho' : own τ' = some h) : τ = τ' := by
  obtain ⟨due, hd⟩ := (hm h τ).mpr ho
  obtain ⟨due', hd'⟩ := (hm h τ').mpr ho'
  rw [hd] at hd'
  cases hd'
  rfl

theorem erase (hm : A.Matches own) (ho : own τ = some h) :
    Matches (A.erase h) (withHandle own τ none) := by
  intro h' τ'
  rw [Table.get?_erase, withHandle]
  by_cases hh : h' = h
  · subst hh
    by_cases ht : τ' = τ
    · simp [ht]
    · simp only [if_true, ht, if_false, reduceCtorEq, exists_const, false_iff]
      exact fun ho' => ht (hm.eq_of_handle ho' ho)
  · rw [if_neg hh, hm h' τ']
    by_cases ht : τ' = τ
    · subst ht
      rw [if_pos rfl, ho]
      simp [Ne.symm hh]
    · rw [if_neg ht]

theorem insert (hm : A.Matches own) (hf : A.get? h = none) (ho : own τ = none) (due : Time) :
    Matches (Table.insert A ⟨h, due, τ⟩) (withHandle own τ (some h)) := by
  intro h' τ'
  rw [Table.get?_insert, withHandle]
  by_cases hh : h = h'
  · subst hh
    by_cases ht : τ' = τ
    · simp [ht, Keyed.key]
    · have hn : own τ' ≠ some h := fun ho' => by
        obtain ⟨due', hd⟩ := (hm h τ').mpr ho'
        rw [hf] at hd
        cases hd
      simp [Keyed.key, ht, Ne.symm ht, hn]
  · rw [show Keyed.key (⟨h, due, τ⟩ : Alarm F) = h from rfl, if_neg hh, hm h' τ']
    by_cases ht : τ' = τ
    · subst ht
      rw [if_pos rfl, ho]
      simp [hh]
    · rw [if_neg ht]

end Alarms.Matches

namespace Router

/-- The handle under which a router knows a pending timer. -/
def handleOf? (r : Router F) : Timer F → Option Handle
  | .hello => r.helloTimer
  | .tc => r.tcTimer
  | .mid => r.midTimer
  | .flush => r.flushTimer
  | .expiry k g => ((r.book.armed.get? k).filter fun a => a.generation = g).map (·.handle)

/-- The timers that are pending after what the router asked for at `now` are those that it knows,
and its next handle is a new one. -/
structure Knows (now : Time) (A : Alarms F) (r : Router F) : Prop where
  known : (r.journal.pending now A).Matches r.handleOf?
  issued : ∀ a ∈ r.journal.pending now A, a.handle ≤ r.journal.issued

namespace Knows

variable {now : Time} {A : Alarms F} {r r' : Router F}

theorem handleOf?_of_mem (h : Knows now A r) {a : Alarm F}
    (ha : a ∈ r.journal.pending now A) : r.handleOf? a.timer = some a.handle :=
  (h.known a.handle a.timer).mp ⟨a.due, Table.get?_eq_some_iff.mpr ⟨ha, rfl⟩⟩

theorem fresh (h : Knows now A r) : (r.journal.pending now A).get? r.journal.nextHandle = none :=
  Table.get?_eq_none_iff.mpr fun a ha he => by
    have hi : a.handle ≤ r.journal.issued := h.issued a ha
    have he : a.handle = r.journal.issued + 1 := he
    exact Nat.not_succ_le_self _ (he ▸ hi)

/-- What does not concern timers. -/
theorem congr (h : Knows now A r) (hp : r'.journal.pending now A = r.journal.pending now A)
    (hi : r'.journal.issued = r.journal.issued) (hh : r'.handleOf? = r.handleOf?) :
    Knows now A r' :=
  ⟨by rw [hp, hh]; exact h.known, by rw [hp, hi]; exact h.issued⟩

theorem cancel (h : Knows now A r) {τ : Timer F} {x : Handle} (hx : r.handleOf? τ = some x)
    (hj : r'.journal = r.journal.call (.cancel x))
    (hh : r'.handleOf? = withHandle r.handleOf? τ none) : Knows now A r' := by
  have hp : r'.journal.pending now A = (r.journal.pending now A).erase x := by
    rw [hj, Journal.pending_call]
    rfl
  refine ⟨by rw [hp, hh]; exact h.known.erase hx, fun a ha => ?_⟩
  rw [hp] at ha
  rw [hj]
  exact h.issued a (Table.mem_erase.mp ha).1

theorem schedule (h : Knows now A r) {τ : Timer F} (hτ : r.handleOf? τ = none) {delay : Time}
    (hj : r'.journal = r.journal.schedule delay τ)
    (hh : r'.handleOf? = withHandle r.handleOf? τ (some r.journal.nextHandle)) :
    Knows now A r' := by
  have hp : r'.journal.pending now A =
      (r.journal.pending now A).insert ⟨r.journal.nextHandle, now + delay, τ⟩ := by
    rw [hj, Journal.pending_schedule]
  refine ⟨by rw [hp, hh]; exact h.known.insert h.fresh hτ _, fun a ha => ?_⟩
  rw [hp] at ha
  rw [hj]
  rcases Table.mem_insert.mp ha with rfl | ⟨ha, -⟩
  · exact Nat.le_refl _
  · exact Nat.le_succ_of_le (h.issued a ha)

/-- What has taken note of a timer that the host took out of the pending ones. -/
theorem deliver (h : Knows now A r) (hb : r.journal.calls = #[]) {τ : Timer F} {x : Handle}
    (hx : r.handleOf? τ = some x) (hj : r'.journal = r.journal)
    (hh : r'.handleOf? = withHandle r.handleOf? τ none) : Knows now (A.erase x) r' := by
  obtain ⟨hk, hi⟩ := h
  rw [Journal.pending_of_empty _ _ hb] at hk hi
  refine ⟨?_, ?_⟩ <;> rw [hj, Journal.pending_of_empty _ _ hb]
  · rw [hh]
    exact hk.erase hx
  · exact fun a ha => hi a (Table.mem_erase.mp ha).1

end Knows

/-! ## Timers of tuples -/

theorem handleOf?_of_armed {r : Router F} {k : TupleKey F} {a : Armed F}
    (h : r.book.armed.get? k = some a) (g : Nat) :
    r.handleOf? (.expiry k g) = if g = a.generation then some a.handle else none := by
  rw [handleOf?, h, Option.filter_some]
  by_cases hg : g = a.generation
  · rw [if_pos hg, if_pos (decide_eq_true hg.symm)]
    rfl
  · rw [if_neg hg, if_neg (by simpa using Ne.symm hg)]
    rfl

theorem handleOf?_of_not_armed {r : Router F} {k : TupleKey F} (h : r.book.armed.get? k = none)
    (g : Nat) : r.handleOf? (.expiry k g) = none := by
  rw [handleOf?, h]
  rfl

/-- The handles after a timer for `k` has taken the place of another, or has gone. -/
theorem handleOf?_of_change {r r' : Router F} {k : TupleKey F} {g : Nat} {x : Option Handle}
    (hs : SameNode r r') (hf : r'.flushTimer = r.flushTimer)
    (ho : ∀ k', k' ≠ k → r'.book.armed.get? k' = r.book.armed.get? k')
    (hk : ∀ g', r'.handleOf? (.expiry k g') = withHandle r.handleOf? (.expiry k g) x (.expiry k g')) :
    r'.handleOf? = withHandle r.handleOf? (.expiry k g) x := by
  funext τ
  cases τ with
  | hello => exact hs.helloTimer
  | tc => exact hs.tcTimer
  | mid => exact hs.midTimer
  | flush => exact hf
  | expiry k' g' =>
    by_cases hkk : k' = k
    · exact hkk ▸ hk g'
    · rw [withHandle, if_neg (fun he => hkk (Timer.expiry.inj he).1), handleOf?, handleOf?, ho k' hkk]

end Router

namespace Router.Knows

variable {now : Time} {A : Alarms F} {r : Router F}

theorem disarm (h : Knows now A r) (k : TupleKey F) : Knows now A (r.onStore (·.disarm k)) := by
  cases ha : r.book.armed.get? k with
  | none =>
    have he : r.toStore.disarm k = r.toStore := by
      unfold Store.disarm
      rw [ha]
    exact h.congr (by rw [onStore, he]) (by rw [onStore, he]) (by rw [onStore, he])
  | some a =>
    have hj : (r.toStore.disarm k).journal = r.journal.call (.cancel a.handle) := by
      unfold Store.disarm
      rw [ha]
    have ho : r.handleOf? (.expiry k a.generation) = some a.handle := by
      rw [handleOf?_of_armed ha, if_pos rfl]
    refine h.cancel ho hj (handleOf?_of_change ⟨rfl, rfl, rfl, rfl, rfl, rfl, rfl⟩ rfl ?_ ?_)
    · exact fun k' hk => (Store.armed_disarm ..).trans (if_neg hk)
    · intro g
      rw [handleOf?_of_not_armed ((Store.armed_disarm ..).trans (if_pos rfl)), withHandle,
        handleOf?_of_armed ha]
      by_cases hg : g = a.generation <;> simp [hg]

theorem arm (h : Knows now A r) (k : TupleKey F) (delay : Time) :
    Knows now A (r.onStore (·.arm k delay)) := by
  have hn : (r.onStore (·.disarm k)).book.armed.get? k = none :=
    (Store.armed_disarm ..).trans (if_pos rfl)
  refine (h.disarm k).schedule (handleOf?_of_not_armed hn ((r.toStore.disarm k).book.generation + 1))
    rfl (handleOf?_of_change ⟨rfl, rfl, rfl, rfl, rfl, rfl, rfl⟩ rfl ?_ ?_)
  · intro k' hk
    refine (Store.armed_arm ..).trans ((if_neg (Ne.symm hk)).trans ?_)
    exact ((Store.armed_disarm ..).trans (if_neg hk)).symm
  · intro g
    rw [handleOf?_of_armed ((Store.armed_arm ..).trans (if_pos rfl)), withHandle,
      handleOf?_of_not_armed hn]
    by_cases hg : g = (r.toStore.disarm k).book.generation + 1 <;> simp [hg, onStore]

theorem watch (h : Knows now A r) (k : TupleKey F) (deadline : Option Time) (now' : Time) :
    Knows now A (r.onStore (·.watch k deadline now')) := by
  cases deadline with
  | none => exact h.disarm k
  | some due => exact h.arm k (due - now')

theorem rearm (h : Knows now A r) (k : TupleKey F) (now' : Time) :
    Knows now A (r.onStore (·.rearm k now')) := by
  cases hd : (r.tables.get? k).bind (·.deadline now') with
  | none =>
    have he : r.toStore.rearm k now' = r.toStore := by rw [Store.rearm, hd]
    rwa [onStore, he]
  | some due =>
    have he : r.toStore.rearm k now' = r.toStore.arm k (due - now') := by rw [Store.rearm, hd]
    rw [onStore, he]
    exact h.arm k _

theorem insert (h : Knows now A r) (t : TimedTuple F) (now' : Time) :
    Knows now A (r.onStore (·.insert t now')) :=
  (h.watch t.key (t.deadline now') now').congr rfl rfl rfl

theorem erase (h : Knows now A r) (k : TupleKey F) : Knows now A (r.onStore (·.erase k)) := by
  cases ht : r.tables.get? k with
  | none =>
    have he : r.toStore.erase k = r.toStore := by rw [Store.erase, ht]
    rwa [onStore, he]
  | some t =>
    have he : r.toStore.erase k =
        { r.toStore.disarm k with tables := (r.toStore.disarm k).tables.drop k } := by
      rw [Store.erase, ht]
    rw [onStore, he]
    exact (h.disarm k).congr rfl rfl rfl

end Router.Knows

end Manet
