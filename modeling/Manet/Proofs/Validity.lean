import Manet.Proofs.Timers

/-!
# Tuples and the end of their validity

A tuple goes when its timer comes after the end of its validity. The timer is armed for no later
than that end (`Knows.timely_of_arm`), whether the tuple is stored (`Timely.insert`) or a link is
marked as lost (`Timely.mark`), but a reception that refreshes the tuple may bring the end
forward, and leaves the timer as it is: then the timer lags (`Hosted.Lags`).
`Hosted.outlives_iff_lags`: a tuple outlives its validity exactly while its timer lags, only
receptions make timers lag, and in a run whose receptions do not, no tuple outlives its validity.
-/

namespace Manet

variable {F : Family}

theorem TimedTuple.deadline_le_time {t : TimedTuple F} {now due e : Time}
    (hd : t.deadline now = some due) (he : t.time = some e) : due ≤ e := by
  cases t with
  | link t =>
    cases hd
    cases he
    split
    · exact Nat.min_le_left ..
    · exact Nat.le_refl _
  | _ => exact Nat.le_of_eq (Option.some.inj (hd.symm.trans he))

/-- A timer that is armed for `due` comes at once if that is in the past. -/
theorem add_sub_le {now due e : Nat} (hn : now ≤ e) (hd : due ≤ e) : now + (due - now) ≤ e := by
  omega

namespace Router

/-! ## Timers that come in time -/

/-- The timer for `k` is due no later than its tuple ends. -/
def Timely (A : Alarms F) (r : Router F) (k : TupleKey F) : Prop :=
  ∀ t e, r.tables.get? k = some t → t.time = some e →
    ∀ a ∈ A, a.timer.purpose = .expiry k → a.due ≤ e

variable {now : Time} {A : Alarms F} {r : Router F}

theorem Timely.congr {A' : Alarms F} {r' : Router F} {k : TupleKey F} (h : r.Timely A k)
    (ht : r'.tables.get? k = r.tables.get? k)
    (hA : ∀ a ∈ A', a.timer.purpose = .expiry k → a ∈ A) : r'.Timely A' k :=
  fun t e hk he a ha hp => h t e (ht.symm.trans hk) he a (hA a ha hp) hp

theorem mem_of_disarm {k : TupleKey F} {a : Alarm F}
    (ha : a ∈ (r.toStore.disarm k).journal.pending now A) : a ∈ r.journal.pending now A := by
  unfold Store.disarm at ha
  split at ha
  · exact ha
  · rw [Journal.pending_call] at ha
    exact (Table.mem_erase.mp ha).1

/-- Of the timers that are pending after an arming, the one for the key is the one just armed. -/
theorem Knows.of_arm (h : Knows now A r) {k : TupleKey F} {delay : Time} {a : Alarm F}
    (ha : a ∈ (r.toStore.arm k delay).journal.pending now A) :
    (a.timer.purpose = .expiry k → a.due = now + delay) ∧
      (a.timer.purpose ≠ .expiry k → a ∈ r.journal.pending now A) := by
  have hk : Knows now A (r.onStore (·.arm k delay)) := h.arm k delay
  let b : Alarm F := ⟨(r.toStore.disarm k).journal.nextHandle, now + delay,
    .expiry k ((r.toStore.disarm k).book.generation + 1)⟩
  have hj : (r.toStore.arm k delay).journal.pending now A =
      ((r.toStore.disarm k).journal.pending now A).insert b := Journal.pending_schedule ..
  have hb : b ∈ (r.toStore.arm k delay).journal.pending now A := by
    rw [hj]
    exact Table.mem_insert.mpr (.inl rfl)
  refine ⟨fun hp => by rw [hk.eq_of_purpose ha hb hp], fun hp => ?_⟩
  rw [hj] at ha
  rcases Table.mem_insert.mp ha with rfl | ⟨ha, -⟩
  · exact absurd rfl hp
  · exact mem_of_disarm ha

/-- What is armed for the deadline of a tuple is due no later than the tuple ends, and the timers
for other tuples are as before. -/
theorem Knows.timely_of_arm (hk : Knows now A r) {t : TimedTuple F} {due : Time}
    (hd : t.deadline now = some due) (hf : ∀ e, t.time = some e → now ≤ e) {r' : Router F}
    (hj : r'.journal = (r.toStore.arm t.key (due - now)).journal)
    (hs : r'.tables.get? t.key = some t)
    (ho : ∀ k, k ≠ t.key → r'.tables.get? k = r.tables.get? k) {k : TupleKey F}
    (h : k ≠ t.key → r.Timely (r.journal.pending now A) k) :
    r'.Timely (r'.journal.pending now A) k := by
  rw [hj]
  by_cases hkk : k = t.key
  · subst hkk
    intro u e hu he a ha hp
    obtain rfl : t = u := Option.some.inj (hs.symm.trans hu)
    rw [(hk.of_arm ha).1 hp]
    exact add_sub_le (hf e he) (TimedTuple.deadline_le_time hd he)
  · refine (h hkk).congr (ho k hkk) fun a ha hp => (hk.of_arm ha).2 fun hp' => hkk ?_
    exact Purpose.expiry.inj (hp.symm.trans hp')

/-! ### Deeds -/

/-- A call that concerns no timer. -/
theorem Timely.call {k : TupleKey F} (h : r.Timely (r.journal.pending now A) k) {c : Call F}
    (hc : ∀ B : Alarms F, Alarms.carryOut now B c = B) :
    (r.call c).Timely ((r.call c).journal.pending now A) k := by
  refine h.congr rfl fun a ha _ => ?_
  rwa [show (r.call c).journal = r.journal.call c from rfl, Journal.pending_call, hc] at ha

/-- What is scheduled for another purpose. -/
theorem Timely.schedule {r' : Router F} {k : TupleKey F} {delay : Time} {τ : Timer F}
    (h : r.Timely (r.journal.pending now A) k) (hτ : τ.purpose ≠ .expiry k)
    (hj : r'.journal.pending now A = (r.journal.schedule delay τ).pending now A)
    (ht : r'.tables = r.tables) : r'.Timely (r'.journal.pending now A) k := by
  refine h.congr (by rw [ht]) fun a ha hp => ?_
  rw [hj, Journal.pending_schedule] at ha
  rcases Table.mem_insert.mp ha with rfl | ⟨ha, -⟩
  · exact absurd hp hτ
  · exact ha

/-- A tuple without an end needs no timer. -/
theorem Timely.insert_lasting {t : TimedTuple F} (hd : t.deadline now = none) {k : TupleKey F}
    (h : r.Timely (r.journal.pending now A) k) :
    (r.onStore (·.insert t now)).Timely ((r.onStore (·.insert t now)).journal.pending now A) k := by
  have hj : (r.onStore (·.insert t now)).journal = (r.toStore.disarm t.key).journal := by
    rw [onStore, Store.journal_insert, hd]
    rfl
  rw [hj]
  by_cases hk : t.key = k
  · intro u e hu he
    obtain rfl : t = u := Option.some.inj (((Store.get?_insert ..).trans (if_pos hk)).symm.trans hu)
    have hlasts : t.time = none := by
      rw [← Option.not_isSome_iff_eq_none, ← t.isSome_deadline now, hd]
      exact Bool.false_ne_true
    cases hlasts.symm.trans he
  · exact h.congr ((Store.get?_insert ..).trans (if_neg hk)) fun a ha _ => mem_of_disarm ha

theorem Timely.insert (hk : Knows now A r) {t : TimedTuple F} (ht : ∀ e, t.time = some e → now ≤ e)
    {k : TupleKey F} (h : r.Timely (r.journal.pending now A) k) :
    (r.onStore (·.insert t now)).Timely ((r.onStore (·.insert t now)).journal.pending now A) k := by
  cases hd : t.deadline now with
  | none => exact h.insert_lasting hd
  | some due =>
    have hj : (r.onStore (·.insert t now)).journal =
        (r.toStore.arm t.key (due - now)).journal := by
      rw [onStore, Store.journal_insert, hd]
      rfl
    refine hk.timely_of_arm hd ht hj ((Store.get?_insert ..).trans (if_pos rfl)) ?_ fun _ => h
    exact fun k' hk' => (Store.get?_insert ..).trans (if_neg (Ne.symm hk'))

theorem mem_of_erase {k : TupleKey F} {a : Alarm F}
    (ha : a ∈ (r.toStore.erase k).journal.pending now A) : a ∈ r.journal.pending now A := by
  cases ht : r.tables.get? k with
  | none => rwa [show r.toStore.erase k = r.toStore by rw [Store.erase, ht]] at ha
  | some t =>
    have hj : (r.toStore.erase k).journal = (r.toStore.disarm k).journal := by
      rw [Store.erase, ht]
    exact mem_of_disarm (hj ▸ ha)

theorem Timely.erase {k : TupleKey F} (h : r.Timely (r.journal.pending now A) k)
    (k' : TupleKey F) :
    (r.onStore (·.erase k')).Timely ((r.onStore (·.erase k')).journal.pending now A) k := by
  by_cases hk : k = k'
  · intro t e ht
    cases ((Store.get?_erase ..).trans (if_pos hk)).symm.trans ht
  · exact h.congr ((Store.get?_erase ..).trans (if_neg hk)) fun a ha _ => mem_of_erase ha

/-- A link that is marked as lost gets a timer for its new end. -/
theorem Timely.mark (hk : Knows now A r) {t : LinkTuple F} (ht : now ≤ t.time) {k : TupleKey F}
    (h : r.Timely (r.journal.pending now A) k) :
    (r.perform now (.mark t)).Timely ((r.perform now (.mark t)).journal.pending now A) k := by
  have hwritten : Knows now A (r.onStore (·.overwrite (.link t))) := hk.congr rfl rfl rfl
  have hlink : (r.toStore.overwrite (.link t)).tables.get? (TimedTuple.link t).key =
      some (.link t) := (Store.get?_overwrite ..).trans (if_pos rfl)
  have htables : (r.perform now (.mark t)).tables = (r.toStore.overwrite (.link t)).tables :=
    Store.tables_rearm ..
  obtain ⟨due, hd⟩ : ∃ due, (TimedTuple.link t).deadline now = some due := ⟨_, rfl⟩
  refine hwritten.timely_of_arm hd (fun e he => Option.some.inj he ▸ ht)
    (congrArg Store.journal (Store.rearm_eq_arm hlink hd)) (htables ▸ hlink)
    (fun k' _ => congrArg (Tables.get? · k') htables) fun hkk => ?_
  exact h.congr ((Store.get?_overwrite ..).trans (if_neg (Ne.symm hkk))) fun a ha _ => ha

/-- Only a refreshment can make a tuple end before its timer is due. -/
theorem Timely.perform (ha : Attends now A r) {d : Deed F} (hd : d.Fits now r)
    (hp : d.part.isRefreshed = false) {k : TupleKey F}
    (h : r.Timely (r.journal.pending now A) k) :
    (r.perform now d).Timely ((r.perform now d).journal.pending now A) k := by
  cases d with
  | tell c => exact h.call fun B => by cases c <;> first | rfl | cases hd
  | loss main => exact h.call fun _ => rfl
  | send id packet => exact h.call fun _ => rfl
  | insert t => exact h.insert ha.toKnows hd.1
  | refresh t => cases hp
  | erase k' => exact h.erase k'
  | mark t =>
    obtain ⟨old, -, ht⟩ := hd
    have hend : now ≤ t.time := by
      rw [ht]
      exact Nat.le_add_right ..
    exact h.mark ha.toKnows hend
  | routes =>
    obtain ⟨j, hj, hr⟩ := r.updateRoutes_eq now
    obtain ⟨hp, -⟩ := hr.pending_eq now A
    rw [Router.perform, hj]
    exact h.congr rfl fun a ha _ => hp ▸ ha
  | enqueue m =>
    rcases r.enqueue_cases m with ⟨-, he⟩ | ⟨-, delay, _, he⟩ <;> rw [Router.perform, he]
    · exact h
    · exact h.schedule (τ := .flush) (fun hp => by cases hp) rfl rfl
  | note n | neighbours table | relays mprs | numberMessage s | numberPacket s => exact h

theorem Timely.does {ps : List Part} {r' : Router F} (hp : ∀ p ∈ ps, p.isRefreshed = false)
    (ha : Attends now A r) (hd : Does ps now r r') {k : TupleKey F}
    (h : r.Timely (r.journal.pending now A) k) : r'.Timely (r'.journal.pending now A) k := by
  have hk := hd.keep
    (P := fun r => Attends now A r ∧ r.Timely (r.journal.pending now A) k)
    (fun r d hd hf h => ⟨h.1.perform hf, h.2.perform h.1 hf (hp _ hd)⟩) ⟨ha, h⟩
  exact hk.2

/-! ## Steps -/

theorem Timely.step {r' : Router F} {op : Operation F} (hop : op.isDelivery = false)
    (hrec : op.isReception = false) (ha : Attends now A r) (hs : Step now r op r')
    {k : TupleKey F} (h : r.Timely (r.journal.pending now A) k) :
    r'.Timely (r'.journal.pending now A) k := by
  cases hs with
  | idle => exact h
  | @start r' provided delay hr hd =>
    have h' : r'.Timely (r'.journal.pending now A) k :=
      does (r := { r with running := true }) (by decide)
        { ha with toKnows := ha.toKnows.congr rfl rfl rfl } hd h
    -- the three timers one after the other
    let j := r'.journal.schedule delay .hello
    have h1 : Timely (j.pending now A) { r' with journal := j } k :=
      h'.schedule (τ := .hello) nofun rfl rfl
    let j' := j.schedule delay .tc
    have h2 : Timely (j'.pending now A) { r' with journal := j' } k :=
      h1.schedule (τ := .tc) nofun rfl rfl
    exact h2.schedule (τ := .mid) nofun rfl rfl
  | stop =>
    intro t e ht
    cases k <;> cases ht
  | packet => cases hrec
  | linkFailed _ _ hd => exact h.does (by decide) ha hd
  | @refresh r' _ hd =>
    have h' := h.does (by decide) ha hd
    exact h'
  | hello | tc | mid | flush | expiry => cases hop

/-- A tuple whose timer was delivered is gone, or its next timer is due before it ends. -/
theorem Timely.expire (ha : Attends now A r) (hb : r.journal.calls = #[]) {key : TupleKey F}
    {g : Nat} {x : Handle} (hx : r.handleOf? (.expiry key g) = some x) {k : TupleKey F}
    (h : r.Timely A k) :
    ({ r with toStore := (r.toStore.expire key g now).2 } : Router F).Timely
      ((r.toStore.expire key g now).2.journal.pending now (A.erase x)) k := by
  obtain ⟨b, hbk, rfl⟩ := Option.map_eq_some_iff.mp hx
  obtain ⟨harmed, hg⟩ := Option.filter_eq_some_iff.mp hbk
  obtain rfl : b.generation = g := of_decide_eq_true hg
  have herase : ∀ a ∈ r.journal.pending now (A.erase b.handle), a ∈ A := fun a ha => by
    rw [Journal.pending_of_empty _ _ hb] at ha
    exact (Table.mem_erase.mp ha).1
  obtain ⟨t, ht, hti, ⟨-, he⟩ | ⟨hn, he⟩⟩ := Store.expire_cases ha.watched harmed now <;> rw [he]
  · by_cases hkk : k = key
    · intro u e hu
      rw [show ({ r with toStore := _ } : Router F).tables = r.tables.drop key from rfl,
        Tables.get?_drop, if_pos hkk] at hu
      cases hu
    · exact h.congr ((Tables.get?_drop ..).trans (if_neg hkk)) fun a ha _ => herase a ha
  · obtain rfl : t.key = key := Tables.key_of_get? ht
    obtain ⟨due, hdl⟩ : ∃ due, t.deadline now = some due :=
      Option.isSome_iff_exists.mp ((t.isSome_deadline now).trans hti)
    let s : Store F :=
      { r.toStore with book := { r.book with armed := r.book.armed.erase t.key } }
    have hr : s.rearm t.key now = s.arm t.key (due - now) := Store.rearm_eq_arm ht hdl
    refine (ha.take_armed hb harmed).timely_of_arm hdl (fun e hte => ?_)
      (congrArg Store.journal hr) ?_ ?_ fun _ => ?_
    · rw [TimedTuple.isExpired, hte] at hn
      exact Nat.le_of_lt (Nat.lt_of_not_le (of_decide_eq_false hn))
    · exact (congrArg (Tables.get? · t.key) (Store.tables_rearm ..)).trans ht
    · exact fun k' _ => congrArg (Tables.get? · k') (Store.tables_rearm ..)
    · exact h.congr rfl fun a ha _ => herase a ha

theorem Timely.deliver {r' : Router F} (ha : Attends now A r)
    (hb : r.journal.calls = #[]) {τ : Timer F} {x : Handle} (hx : r.handleOf? τ = some x)
    (hs : Step now r (.timer τ) r') {k : TupleKey F} (h : r.Timely A k) :
    r'.Timely (r'.journal.pending now (A.erase x)) k := by
  have herase : r.Timely (r.journal.pending now (A.erase x)) k := by
    rw [Journal.pending_of_empty _ _ hb]
    exact h.congr rfl fun a ha _ => (Table.mem_erase.mp ha).1
  cases hs with
  | idle => exact herase
  | hello _ _ _ hd =>
    exact (does (by decide) (ha.take_hello hb hx) hd herase).schedule (τ := .hello) nofun rfl rfl
  | tc _ _ _ hd =>
    exact (does (by decide) (ha.take_tc hb hx) hd herase).schedule (τ := .tc) nofun rfl rfl
  | mid _ _ _ hd =>
    exact (does (by decide) (ha.take_mid hb hx) hd herase).schedule (τ := .mid) nofun rfl rfl
  | flush _ hd => exact does (by decide) (ha.take_flush hb hx) hd herase
  | expiry key g _ hd => exact does (by decide) (ha.take_expiry hb hx) hd (h.expire ha hb hx)

end Router

/-! ## Runs -/

namespace Hosted

/-- When the tuple under `k` ends, if it is stored and does not last. -/
def endOf? (H : Hosted F) (k : TupleKey F) : Option Time :=
  (H.router.tables.get? k).bind (·.time)

/-- The tuple under `k` ends at `e`, but its timer is due only at `due`. -/
def Lags (H : Hosted F) (k : TupleKey F) (e due : Time) : Prop :=
  H.endOf? k = some e ∧
    (∃ a ∈ H.alarms.toList, a.timer.purpose = .expiry k ∧ a.due = due) ∧ e < due

/-- The clock reads `t`, and all timers that were due by then were delivered. -/
def QuietAt (H : Hosted F) (t : Time) : Prop := H.now ≤ t ∧ ∀ a ∈ H.alarms.toList, t < a.due

/-- A tuple is stored under `k` although its validity has ended at `t`. -/
def Outlives (H : Hosted F) (t : Time) (k : TupleKey F) : Prop := (H.endOf? k).any (· ≤ t) = true

instance (H : Hosted F) (k : TupleKey F) (e due : Time) : Decidable (H.Lags k e due) :=
  inferInstanceAs (Decidable (_ ∧ _ ∧ _))

instance (H : Hosted F) (t : Time) : Decidable (H.QuietAt t) :=
  inferInstanceAs (Decidable (_ ∧ _))

instance (H : Hosted F) (t : Time) (k : TupleKey F) : Decidable (H.Outlives t k) :=
  inferInstanceAs (Decidable (_ = _))

/-- A step that makes no further timer lag behind its tuple. -/
def Steady (H H' : Hosted F) : Prop :=
  Next H H' ∧ ∀ k e due, H'.Lags k e due → ∃ e due, H.Lags k e due

variable {H H' : Hosted F}

theorem timely_iff {k : TupleKey F} :
    H.router.Timely H.alarms k ↔ ∀ e due, ¬ H.Lags k e due := by
  constructor
  · rintro h e due ⟨he, ⟨a, ha, hp, rfl⟩, hlt⟩
    obtain ⟨t, ht, hte⟩ := Option.bind_eq_some_iff.mp he
    exact Nat.not_le_of_lt hlt (h t e ht hte a ha hp)
  · intro h t e ht he a ha hp
    refine Nat.le_of_not_lt fun hlt => h e a.due ⟨?_, ⟨a, ha, hp, rfl⟩, hlt⟩
    rw [endOf?, ht, Option.bind_some, he]

/-- Of what may happen, only receptions make timers lag. -/
theorem Exact.timely_next (h : H.Exact) (hn : Next H H')
    (hr : ¬ ∃ now id sender datagram, H' = H.operate now (.packet id sender datagram))
    {k : TupleKey F} (hk : H.router.Timely H.alarms k) : H'.router.Timely H'.alarms k := by
  cases hn with
  | @operation now op _ hop =>
    have hrec : op.isReception = false := by
      cases op with
      | packet id sender datagram => exact absurd ⟨now, id, sender, datagram, rfl⟩ hr
      | _ => rfl
    refine Router.Timely.step hop hrec (h.attends now) (H.router.apply_step now op) ?_
    rwa [Journal.pending_of_empty _ _ h.blank]
  | @delivery now a _ ha =>
    exact hk.deliver (h.attends now) h.blank (h.handleOf? ha) (H.router.apply_step now _)

/-- At a quiet time a tuple has outlived its validity exactly if its timer is late. -/
theorem Exact.outlives_iff (h : H.Exact) {t : Time} (hq : H.QuietAt t) (k : TupleKey F) :
    H.Outlives t k ↔ ∃ e due, H.Lags k e due ∧ e ≤ t ∧ t < due := by
  rw [Outlives, Option.any_eq_true]
  constructor
  · rintro ⟨e, he, hle⟩
    have hle : e ≤ t := of_decide_eq_true hle
    have hn : H.router.needs (.expiry k) = true := by
      rw [Router.needs, show (H.router.tables.get? k).bind _ = some e from he]
      rfl
    obtain ⟨a, ha, hp⟩ := List.mem_map.mp ((h.mem_purposes_iff _).mpr hn)
    have hlt : t < a.due := hq.2 a ha
    exact ⟨e, a.due, ⟨he, ⟨a, ha, hp, rfl⟩, Nat.lt_of_le_of_lt hle hlt⟩, hle, hlt⟩
  · rintro ⟨e, due, ⟨he, -⟩, hle, -⟩
    exact ⟨e, he, decide_eq_true hle⟩

theorem Reaches.not_lags (h : Reaches Steady H) (k : TupleKey F) (e due : Time) :
    ¬ H.Lags k e due := by
  induction h generalizing k e due with
  | create address params entropy =>
    rintro ⟨-, ⟨a, ha, -⟩, -⟩
    cases ha
  | next _ hs ih =>
    intro hl
    obtain ⟨e', due', hl'⟩ := hs.2 k e due hl
    exact ih k e' due' hl'

/-- A tuple is kept beyond its validity exactly from its end to the time for which its timer is
due, if the timer is late; only receptions make timers late, so in runs whose receptions do not,
nothing outlives its validity. -/
theorem outlives_iff_lags (h : Reaches Next H) :
    (∀ t k, H.QuietAt t →
      (H.Outlives t k ↔ ∃ e due, H.Lags k e due ∧ e ≤ t ∧ t < due)) ∧
    (∀ H', Next H H' → ¬ Steady H H' →
      ∃ now id sender datagram, H' = H.operate now (.packet id sender datagram)) ∧
    (Reaches Steady H → ∀ t k, H.QuietAt t → ¬ H.Outlives t k) := by
  have he : H.Exact := h.exact fun _ _ hn => hn
  refine ⟨fun t k hq => he.outlives_iff hq k, fun H' hn hs => ?_, fun hs t k hq ho => ?_⟩
  · refine Classical.byContradiction fun hr => hs ⟨hn, fun k e due hl => ?_⟩
    refine Classical.byContradiction fun hno => ?_
    have hk : H.router.Timely H.alarms k :=
      timely_iff.mpr fun e due hl => hno ⟨e, due, hl⟩
    exact timely_iff.mp (he.timely_next hn hr hk) e due hl
  · obtain ⟨e, due, hl, -⟩ := (he.outlives_iff hq k).mp ho
    exact hs.not_lags k e due hl

/-! Two runs: in the first no timer is late, and in the second a shorter HELLO makes one late. -/

/-- Whether no timer lags behind its tuple. -/
def isTimely (H : Hosted F) : Bool :=
  H.alarms.toList.all fun a =>
    match a.timer with
    | .expiry k _ => (H.endOf? k).all (a.due ≤ ·)
    | .hello | .tc | .mid | .flush => true

theorem not_lags_of_isTimely (h : H.isTimely = true) (k : TupleKey F) (e due : Time) :
    ¬ H.Lags k e due := by
  rintro ⟨he, ⟨a, ha, hp, rfl⟩, hlt⟩
  have hc := List.all_eq_true.mp h a ha
  obtain ⟨handle, due, timer⟩ := a
  cases timer <;> cases hp
  dsimp only at hc
  rw [he] at hc
  exact Nat.not_le_of_lt hlt (of_decide_eq_true hc)

theorem sample_reaches_steady : Reaches Steady sample := by
  refine .next (.next (.create _ _ _) ⟨.operation Router.sampleStart (Nat.le_refl 0) rfl, ?_⟩)
    ⟨.operation Router.sampleReception (Nat.le_refl 0) rfl, ?_⟩
  · exact fun k e due hl => absurd hl (not_lags_of_isTimely (by decide +kernel) k e due)
  · exact fun k e due hl => absurd hl (not_lags_of_isTimely (by decide +kernel) k e due)

/-- The HELLO of the sample once more, but valid for three eighths of a second only. -/
def shorterHello : Octets :=
  [0, 32, 0, 1, 1, 0x82, 0, 28, 10, 0, 0, 2, 1, 0, 0, 1, 0, 0, 5, 3, 6, 0, 0, 12, 10, 0, 0, 1,
    10, 0, 0, 3]

/-- The sample after the shorter HELLO. -/
def late : Hosted .ipv4 :=
  sample.operate 0 (.packet (.number 0) (.ofNat 0x0a000002) shorterHello)

theorem late_reaches : Reaches Next late :=
  .next sample_reaches (.operation _ (Nat.le_refl 0) rfl)

theorem outlives_iff_lags_sample :
    ¬ sample.Outlives (.ofSeconds 1) (.twoHop (.ofNat 0x0a000002) (.ofNat 0x0a000003)) ∧
      late.Outlives (.ofSeconds 1) (.twoHop (.ofNat 0x0a000002) (.ofNat 0x0a000003)) :=
  ⟨(outlives_iff_lags sample_reaches).2.2 sample_reaches_steady _ _ (by decide +kernel),
    ((outlives_iff_lags late_reaches).1 _ _ (by decide +kernel)).mpr
      ⟨375000000, .ofSeconds 96, by decide +kernel⟩⟩

end Hosted

end Manet
