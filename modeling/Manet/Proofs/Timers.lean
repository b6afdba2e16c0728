import Manet.Proofs.Attendance

/-!
# Exact timers

`Hosted.timers_exact`: over every run of a router on its host the pending timers are exactly those
that the router needs, which are three periodic ones while it runs, a flush while messages wait, and
one expiry for each tuple with an end. After a stop none is pending. The invariant is `Hosted.Exact`: the router attends to its
timers and is on duty while it runs (`Router.OnDuty`), and the host has carried out all its calls. A
router first takes note of a timer that is delivered (`take_hello` and its like), and what it does
then is a sequence of deeds.
-/

namespace Manet

variable {F : Family}

/-! ## Steps -/

/-- Nothing but a tuple that is stored arms the timer of a tuple. -/
theorem Does.not_armed {ps : List Part} {now : Time} {r r' : Router F} (h : Does ps now r r')
    (hp : ∀ p ∈ ps, p.isStored = false) {k : TupleKey F} (hk : r.book.armed.get? k = none) :
    r'.book.armed.get? k = none := by
  refine h.keep (P := fun r => r.book.armed.get? k = none) (fun r d hd _ hr => ?_) hk
  cases d with
  | insert t =>
    have ht : t.time = none := by
      rw [Deed.part] at hd
      split at hd
      · cases hp _ hd
      · rename_i hn
        exact Option.not_isSome_iff_eq_none.mp hn
    have hdl : t.deadline now = none := by
      rw [← Option.not_isSome_iff_eq_none, t.isSome_deadline now, ht]
      exact Bool.false_ne_true
    show (r.toStore.insert t now).book.armed.get? k = none
    rw [Store.book_insert, hdl]
    refine (Store.armed_disarm ..).trans ?_
    rw [hr, ite_self]
  | erase k' =>
    show (r.toStore.erase k').book.armed.get? k = none
    cases ht : r.tables.get? k' with
    | none => rwa [Store.erase, ht]
    | some t => rw [Store.book_erase ht, Store.armed_disarm, hr, ite_self]
  | mark t => cases hp _ hd
  | routes =>
    obtain ⟨j, hj, -⟩ := r.updateRoutes_eq now
    rwa [Router.perform, hj]
  | enqueue m => rcases r.enqueue_cases m with ⟨-, he⟩ | ⟨-, _, _, he⟩ <;> rwa [Router.perform, he]
  | _ => exact hr

namespace Router

/-- The periodic timers are known while the router runs, and nothing is under way while it does
not. -/
structure OnDuty (r : Router F) : Prop where
  hello : r.helloTimer.isSome = r.running
  tc : r.tcTimer.isSome = r.running
  mid : r.midTimer.isSome = r.running
  idle : r.running = false → r.outbound = [] ∧ ∀ k, r.book.armed.get? k = none

namespace OnDuty

variable {now : Time} {r r' : Router F}

theorem of_running (hr : r.running = true) (hh : r.helloTimer.isSome = true)
    (ht : r.tcTimer.isSome = true) (hm : r.midTimer.isSome = true) : r.OnDuty :=
  ⟨hh.trans hr.symm, ht.trans hr.symm, hm.trans hr.symm,
    fun hn => absurd (hn.symm.trans hr) Bool.false_ne_true⟩

theorem of_sameNode (h : r.OnDuty) (hs : SameNode r r') (hr : r.running = true) : r'.OnDuty :=
  of_running (hs.running.trans hr)
    (by rw [hs.helloTimer]; exact h.hello.trans hr)
    (by rw [hs.tcTimer]; exact h.tc.trans hr)
    (by rw [hs.midTimer]; exact h.mid.trans hr)

theorem refresh (h : r.OnDuty) (hd : Does [.lasting, .dropped .association] now r r') :
    r'.OnDuty := by
  cases hr : r.running with
  | true => exact h.of_sameNode hd.sameNode hr
  | false =>
    obtain ⟨ho, ha⟩ := h.idle hr
    have hs := hd.sameNode
    refine ⟨?_, ?_, ?_, fun _ => ⟨(hd.outbound_eq (by decide)).trans ho, fun k => ?_⟩⟩
    · rw [hs.helloTimer, hs.running, h.hello]
    · rw [hs.tcTimer, hs.running, h.tc]
    · rw [hs.midTimer, hs.running, h.mid]
    · exact hd.not_armed (by decide) (ha k)

theorem step (h : r.OnDuty) {op : Operation F} (hs : Step now r op r') : r'.OnDuty := by
  cases hs with
  | idle => exact h
  | start _ _ _ hd => exact of_running hd.sameNode.running rfl rfl rfl
  | stop => exact ⟨rfl, rfl, rfl, fun _ => ⟨rfl, fun k => rfl⟩⟩
  | packet _ _ _ hr hd => exact h.of_sameNode hd.sameNode hr
  | linkFailed _ hr hd => exact h.of_sameNode hd.sameNode hr
  | refresh _ hd =>
    obtain ⟨hh, ht, hm, hi⟩ := h.refresh hd
    exact ⟨hh, ht, hm, hi⟩
  | hello _ _ hr hd =>
    have hs := hd.sameNode
    exact of_running (hs.running.trans hr) rfl
      ((congrArg Option.isSome hs.tcTimer).trans (h.tc.trans hr))
      ((congrArg Option.isSome hs.midTimer).trans (h.mid.trans hr))
  | tc _ _ hr hd =>
    have hs := hd.sameNode
    exact of_running (hs.running.trans hr)
      ((congrArg Option.isSome hs.helloTimer).trans (h.hello.trans hr)) rfl
      ((congrArg Option.isSome hs.midTimer).trans (h.mid.trans hr))
  | mid _ _ hr hd =>
    have hs := hd.sameNode
    exact of_running (hs.running.trans hr)
      ((congrArg Option.isSome hs.helloTimer).trans (h.hello.trans hr))
      ((congrArg Option.isSome hs.tcTimer).trans (h.tc.trans hr)) rfl
  | flush hr hd =>
    exact of_sameNode (r := { r with flushTimer := none, outbound := [] })
      (of_running hr (h.hello.trans hr) (h.tc.trans hr) (h.mid.trans hr)) hd.sameNode hr
  | expiry key generation hr hd =>
    exact of_sameNode (r := { r with toStore := (r.toStore.expire key generation now).2 })
      (of_running hr (h.hello.trans hr) (h.tc.trans hr) (h.mid.trans hr)) hd.sameNode hr

end OnDuty

namespace Attends

variable {now : Time} {A : Alarms F} {r r' : Router F}

theorem mem_ownTimers_or_armed {τ : Timer F} {x : Handle} (h : r.handleOf? τ = some x) :
    x ∈ r.ownTimers ∨ x ∈ r.book.armed.toList.map (·.handle) := by
  cases τ with
  | expiry k g =>
    obtain ⟨a, ha, rfl⟩ := Option.map_eq_some_iff.mp h
    have hm : a ∈ r.book.armed := (Table.get?_eq_some_iff.mp (Option.filter_eq_some_iff.mp ha).1).1
    exact .inr (List.mem_map_of_mem hm)
  | hello | tc | mid | flush =>
    refine .inl (List.mem_filterMap.mpr ⟨some x, ?_, rfl⟩)
    simp only [handleOf?] at h
    simp [h]

/-- A stop cancels every timer that the router knows. -/
theorem pending_stop (h : Attends now A r) (x : Handle) :
    ((((r.journal.cancelAll r.ownTimers).cancelAll
      (r.book.armed.toList.map (·.handle))).withdrawAll r.routes.toList).pending now A).get? x =
        none := by
  rw [Journal.pending_withdrawAll, Journal.pending_cancelAll, Journal.pending_cancelAll]
  split
  · rfl
  · rename_i hx
    split
    · rfl
    · rename_i hx'
      cases hp : (r.journal.pending now A).get? x with
      | none => rfl
      | some a =>
        obtain ⟨y, due, τ⟩ := a
        have hy : y = x := (Table.get?_eq_some_iff.mp hp).2
        subst hy
        exact ((mem_ownTimers_or_armed ((h.known y τ).mp ⟨due, hp⟩)).elim hx' hx).elim

theorem step (h : Attends now A r) (hdut : r.OnDuty) {op : Operation F}
    (hop : op.isDelivery = false) (hs : Step now r op r') : Attends now A r' := by
  cases hs with
  | idle => exact h
  | @start r' provided delay hr hd =>
    have h' : Attends now A r' :=
      does (r := { r with running := true }) { h with toKnows := h.toKnows.congr rfl rfl rfl } hd
    obtain ⟨hh, ht, hm⟩ : r'.helloTimer = none ∧ r'.tcTimer = none ∧ r'.midTimer = none := by
      have hs := hd.sameNode
      rw [hs.helloTimer, hs.tcTimer, hs.midTimer]
      simp only [← Option.not_isSome_iff_eq_none]
      rw [hdut.hello, hdut.tc, hdut.mid, hr]
      decide
    -- the three timers one after the other
    have h1 : Knows now A { r' with
        journal := r'.journal.schedule delay .hello
        helloTimer := some (r'.journal.issued + 1) } :=
      h'.schedule (τ := .hello) hh rfl (by funext τ; cases τ <;> rfl)
    have h2 : Knows now A { r' with
        journal := (r'.journal.schedule delay .hello).schedule delay .tc
        helloTimer := some (r'.journal.issued + 1)
        tcTimer := some (r'.journal.issued + 2) } :=
      h1.schedule (τ := .tc) ht rfl (by funext τ; cases τ <;> rfl)
    have h3 : Knows now A { r' with
        journal := ((r'.journal.schedule delay .hello).schedule delay .tc).schedule delay .mid
        helloTimer := some (r'.journal.issued + 1)
        tcTimer := some (r'.journal.issued + 2)
        midTimer := some (r'.journal.issued + 3) } :=
      h2.schedule (τ := .mid) hm rfl (by funext τ; cases τ <;> rfl)
    exact h'.congr (h3.congr rfl rfl rfl) h'.watched rfl rfl rfl rfl
  | stop =>
    refine ⟨⟨fun x τ => ?_, fun a ha => ?_⟩, fun k => ?_, rfl, fun k t ht => ?_⟩
    · refine ⟨fun ⟨due, hp⟩ => absurd ((h.pending_stop x).symm.trans hp) nofun, fun ho => ?_⟩
      cases τ <;> cases ho
    · exact absurd rfl (Table.get?_eq_none_iff.mp (h.pending_stop a.handle) a ha)
    · cases k <;> rfl
    · cases k <;> cases ht
  | packet _ _ _ _ hd => exact h.does hd
  | linkFailed _ _ hd => exact h.does hd
  | @refresh r' _ hd =>
    have h' : Attends now A r' := h.does hd
    exact { h' with toKnows := h'.toKnows.congr rfl rfl rfl }
  | hello | tc | mid | flush | expiry => cases hop

/-- While a router does not run, it knows no timer. -/
theorem handleOf?_of_not_running (h : Attends now A r) (hdut : r.OnDuty) (hr : r.running = false)
    (τ : Timer F) : r.handleOf? τ = none := by
  obtain ⟨ho, ha⟩ := hdut.idle hr
  rw [← Option.not_isSome_iff_eq_none]
  cases τ with
  | hello => exact fun hs => Bool.false_ne_true ((hr.symm.trans hdut.hello.symm).trans hs)
  | tc => exact fun hs => Bool.false_ne_true ((hr.symm.trans hdut.tc.symm).trans hs)
  | mid => exact fun hs => Bool.false_ne_true ((hr.symm.trans hdut.mid.symm).trans hs)
  | flush =>
    show ¬ r.flushTimer.isSome = true
    rw [h.queued, ho]
    exact Bool.false_ne_true
  | expiry k g =>
    rw [handleOf?_of_not_armed (ha k)]
    exact Bool.false_ne_true

/-- The timer of a tuple is taken note of first. -/
theorem take_armed (h : Attends now A r) (hb : r.journal.calls = #[]) {k : TupleKey F} {a : Armed F}
    (ha : r.book.armed.get? k = some a) :
    Knows now (A.erase a.handle)
      { r with book := { r.book with armed := r.book.armed.erase k } } := by
  have ho : r.handleOf? (.expiry k a.generation) = some a.handle := by
    rw [handleOf?_of_armed ha, if_pos rfl]
  refine h.toKnows.deliver hb ho rfl
    (handleOf?_of_change ⟨rfl, rfl, rfl, rfl, rfl, rfl, rfl⟩ rfl ?_ ?_)
  · exact fun k' hk => (Table.get?_erase ..).trans (if_neg hk)
  · intro g
    rw [handleOf?_of_not_armed ((Table.get?_erase ..).trans (if_pos rfl)), withHandle,
      handleOf?_of_armed ha]
    by_cases hg : g = a.generation <;> simp [hg]

/-- The answer of the store to an armed timer. -/
theorem expire (h : Attends now A r) (hb : r.journal.calls = #[]) {k : TupleKey F} {a : Armed F}
    (ha : r.book.armed.get? k = some a) :
    Attends now (A.erase a.handle)
      { r with toStore := (r.toStore.expire k a.generation now).2 } := by
  have hk := h.take_armed hb ha
  have hw := h.watched.expire ha now
  obtain ⟨t, ht, hti, ⟨-, he⟩ | ⟨-, he⟩⟩ := Store.expire_cases h.watched ha now
  · rw [he] at hw ⊢
    refine ⟨hk.congr rfl rfl rfl, hw, h.queued, fun k' u hu => ?_⟩
    rw [show ({ r with toStore := _ } : Router F).tables = r.tables.drop k from rfl,
      Tables.get?_drop] at hu
    split at hu
    · cases hu
    · exact h.lasting k' u hu
  · rw [he] at hw ⊢
    refine h.congr (hk.rearm k now) hw ?_ rfl rfl rfl
    exact Store.tables_rearm { r.toStore with
      book := { r.book with armed := r.book.armed.erase k } } k now

/-! A router takes note of a timer that is delivered before it does anything else. -/

theorem take_hello (h : Attends now A r) (hb : r.journal.calls = #[]) {x : Handle}
    (hx : r.handleOf? .hello = some x) :
    Attends now (A.erase x) { r with helloTimer := none } :=
  h.congr (h.toKnows.deliver hb hx rfl (by funext τ; cases τ <;> rfl)) h.watched rfl rfl rfl rfl

theorem take_tc (h : Attends now A r) (hb : r.journal.calls = #[]) {x : Handle}
    (hx : r.handleOf? .tc = some x) : Attends now (A.erase x) { r with tcTimer := none } :=
  h.congr (h.toKnows.deliver hb hx rfl (by funext τ; cases τ <;> rfl)) h.watched rfl rfl rfl rfl

theorem take_mid (h : Attends now A r) (hb : r.journal.calls = #[]) {x : Handle}
    (hx : r.handleOf? .mid = some x) : Attends now (A.erase x) { r with midTimer := none } :=
  h.congr (h.toKnows.deliver hb hx rfl (by funext τ; cases τ <;> rfl)) h.watched rfl rfl rfl rfl

theorem take_flush (h : Attends now A r) (hb : r.journal.calls = #[]) {x : Handle}
    (hx : r.handleOf? .flush = some x) :
    Attends now (A.erase x) { r with flushTimer := none, outbound := [] } :=
  ⟨h.toKnows.deliver hb hx rfl (by funext τ; cases τ <;> rfl), h.watched, rfl, h.lasting⟩

theorem take_expiry (h : Attends now A r) (hb : r.journal.calls = #[]) {k : TupleKey F} {g : Nat}
    {x : Handle} (hx : r.handleOf? (.expiry k g) = some x) :
    Attends now (A.erase x) { r with toStore := (r.toStore.expire k g now).2 } := by
  obtain ⟨a, ha, rfl⟩ := Option.map_eq_some_iff.mp hx
  obtain ⟨harmed, hg⟩ := Option.filter_eq_some_iff.mp ha
  obtain rfl : a.generation = g := of_decide_eq_true hg
  exact h.expire hb harmed

theorem not_idle (h : Attends now A r) (hdut : r.OnDuty) {τ : Timer F} {x : Handle}
    (hx : r.handleOf? τ = some x) : r.running = true := by
  cases hr : r.running with
  | true => rfl
  | false => exact absurd (hx.symm.trans (h.handleOf?_of_not_running hdut hr τ)) nofun

theorem deliver (h : Attends now A r) (hdut : r.OnDuty) (hb : r.journal.calls = #[]) {τ : Timer F}
    {x : Handle} (hx : r.handleOf? τ = some x) (hs : Step now r (.timer τ) r') :
    Attends now (A.erase x) r' := by
  cases hs with
  | idle hn => exact absurd (hn (h.not_idle hdut hx)) nofun
  | @hello r' delay entropy hr hd =>
    have h' : Attends now (A.erase x) r' := (h.take_hello hb hx).does hd
    exact h'.congr (h'.schedule (τ := .hello) hd.sameNode.helloTimer rfl
      (by funext τ; cases τ <;> rfl)) h'.watched rfl rfl rfl rfl
  | @tc r' delay entropy hr hd =>
    have h' : Attends now (A.erase x) r' := (h.take_tc hb hx).does hd
    exact h'.congr (h'.schedule (τ := .tc) hd.sameNode.tcTimer rfl
      (by funext τ; cases τ <;> rfl)) h'.watched rfl rfl rfl rfl
  | @mid r' delay entropy hr hd =>
    have h' : Attends now (A.erase x) r' := (h.take_mid hb hx).does hd
    exact h'.congr (h'.schedule (τ := .mid) hd.sameNode.midTimer rfl
      (by funext τ; cases τ <;> rfl)) h'.watched rfl rfl rfl rfl
  | flush hr hd => exact (h.take_flush hb hx).does hd
  | expiry k g hr hd => exact (h.take_expiry hb hx).does hd

/-- Once its calls are carried out, the router has nothing to ask for. -/
theorem settle (h : Attends now A r) (now' : Time) :
    Attends now' (r.journal.pending now A) { r with journal := .blank r.journal.issued } :=
  ⟨⟨h.known, h.issued⟩, h.watched, h.queued, h.lasting⟩

end Attends

end Router

/-! ## Runs -/

namespace Hosted

/-- What holds of a router on its host between operations. -/
structure Exact (H : Hosted F) : Prop where
  blank : H.router.journal.calls = #[]
  attends (now : Time) : H.router.Attends now H.alarms
  onDuty : H.router.OnDuty

variable {H H' : Hosted F}

theorem Exact.operate (h : H.Exact) {now : Time} {op : Operation F}
    (hop : op.isDelivery = false) : (H.operate now op).Exact := by
  have hs := H.router.apply_step now op
  obtain ⟨hh, ht, hm, hi⟩ := h.onDuty.step hs
  exact ⟨rfl, fun now' => ((h.attends now).step h.onDuty hop hs).settle now', hh, ht, hm, hi⟩

theorem Exact.handleOf? (h : H.Exact) {a : Alarm F} (ha : a ∈ H.alarms) :
    H.router.handleOf? a.timer = some a.handle := by
  refine (h.attends 0).handleOf?_of_mem ?_
  rwa [Journal.pending_of_empty _ _ h.blank]

theorem Exact.deliver (h : H.Exact) {now : Time} {a : Alarm F} (ha : a ∈ H.alarms) :
    (H.deliver now a).Exact := by
  have hs := H.router.apply_step now (.timer a.timer)
  obtain ⟨hh, ht, hm, hi⟩ := h.onDuty.step hs
  have h' := (h.attends now).deliver h.onDuty h.blank (h.handleOf? ha) hs
  exact ⟨rfl, fun now' => h'.settle now', hh, ht, hm, hi⟩

theorem Exact.next (h : H.Exact) (hn : Next H H') : H'.Exact := by
  cases hn with
  | operation op _ hop => exact h.operate hop
  | delivery a _ ha => exact h.deliver ha

theorem exact_create (address : Address F) (params : Params) (entropy : Entropy) :
    (create address params entropy).Exact := by
  refine ⟨rfl, fun now => ⟨⟨fun x τ => ?_, nofun⟩, fun k => ?_, rfl, fun k t ht => ?_⟩, rfl, rfl, rfl,
    fun _ => ⟨rfl, fun k => rfl⟩⟩
  · constructor
    · rintro ⟨due, ha⟩
      cases ha
    · intro ho
      cases τ <;> cases ho
  · cases k <;> rfl
  · cases k <;> cases ht

theorem Reaches.exact {R : Hosted F → Hosted F → Prop} (hR : ∀ H H', R H H' → Next H H')
    (h : Reaches R H) : H.Exact := by
  induction h with
  | create => exact exact_create ..
  | next _ hn ih => exact ih.next (hR _ _ hn)

end Hosted

/-! ## Exactly the timers that are needed -/

/-- What a timer is for. -/
inductive Purpose (F : Family) where
  | hello
  | tc
  | mid
  | flush
  | expiry (key : TupleKey F)
deriving DecidableEq

/-- What a timer is for, whichever generation it is of. -/
def Timer.purpose : Timer F → Purpose F
  | hello => .hello
  | tc => .tc
  | mid => .mid
  | flush => .flush
  | expiry k _ => .expiry k

/-- Whether a router needs a timer: the periodic ones while it runs, a flush while messages wait,
and an expiry for each tuple with an end. -/
def Router.needs (r : Router F) : Purpose F → Bool
  | .hello | .tc | .mid => r.running
  | .flush => !r.outbound.isEmpty
  | .expiry k => ((r.tables.get? k).bind (·.time)).isSome

namespace Router

variable {now : Time} {A : Alarms F} {r : Router F}

/-- A router knows one timer for each need. -/
theorem Attends.needs_iff (h : Attends now A r) (hd : r.OnDuty) (p : Purpose F) :
    r.needs p = true ↔ ∃ τ x, r.handleOf? τ = some x ∧ τ.purpose = p := by
  have own {τ : Timer F} {b : Bool} (hb : (r.handleOf? τ).isSome = b) (hp : τ.purpose = p)
      (hu : ∀ τ', τ'.purpose = p → τ' = τ) :
      b = true ↔ ∃ τ x, r.handleOf? τ = some x ∧ τ.purpose = p := by
    rw [← hb, Option.isSome_iff_exists]
    exact ⟨fun ⟨x, hx⟩ => ⟨τ, x, hx, hp⟩, fun ⟨τ', x, hx, hp'⟩ => ⟨x, hu τ' hp' ▸ hx⟩⟩
  cases p with
  | hello => exact own (τ := .hello) hd.hello rfl fun τ' hp => by cases τ' <;> first | rfl | cases hp
  | tc => exact own (τ := .tc) hd.tc rfl fun τ' hp => by cases τ' <;> first | rfl | cases hp
  | mid => exact own (τ := .mid) hd.mid rfl fun τ' hp => by cases τ' <;> first | rfl | cases hp
  | flush => exact own (τ := .flush) h.queued rfl fun τ' hp => by cases τ' <;> first | rfl | cases hp
  | expiry k =>
    rw [needs, ← h.watched k, Option.isSome_iff_exists]
    constructor
    · rintro ⟨a, ha⟩
      exact ⟨.expiry k a.generation, a.handle, by rw [handleOf?_of_armed ha, if_pos rfl], rfl⟩
    · rintro ⟨τ, x, hx, hp⟩
      cases τ <;> cases hp
      obtain ⟨a, ha, -⟩ := Option.map_eq_some_iff.mp hx
      exact ⟨a, (Option.filter_eq_some_iff.mp ha).1⟩

/-- Two timers for the same need are the same timer. -/
theorem handle_unique {τ τ' : Timer F} {x x' : Handle} (hx : r.handleOf? τ = some x)
    (hx' : r.handleOf? τ' = some x') (hp : τ.purpose = τ'.purpose) : x = x' := by
  cases τ <;> cases τ' <;> cases hp
  case expiry k g g' =>
    obtain ⟨a, ha, rfl⟩ := Option.map_eq_some_iff.mp hx
    obtain ⟨a', ha', rfl⟩ := Option.map_eq_some_iff.mp hx'
    rw [Option.some.inj ((Option.filter_eq_some_iff.mp ha).1.symm.trans
      (Option.filter_eq_some_iff.mp ha').1)]
  all_goals exact Option.some.inj (hx.symm.trans hx')

theorem Knows.eq_of_purpose (h : Knows now A r) {a b : Alarm F}
    (ha : a ∈ r.journal.pending now A) (hb : b ∈ r.journal.pending now A)
    (hp : a.timer.purpose = b.timer.purpose) : a = b :=
  Table.eq_of_mem ha hb (handle_unique (h.handleOf?_of_mem ha) (h.handleOf?_of_mem hb) hp)

end Router

namespace Hosted

variable {H : Hosted F}

theorem Exact.nodup_purposes (h : H.Exact) :
    (H.alarms.toList.map (·.timer.purpose)).Nodup := by
  refine List.pairwise_map.mpr (H.alarms.sorted.imp_of_mem fun {a b} ha hb hab hp => ?_)
  refine KeyOrder.ne_of_before hab ?_
  exact Router.handle_unique (h.handleOf? ha) (h.handleOf? hb) hp

theorem Exact.mem_purposes_iff (h : H.Exact) (p : Purpose F) :
    p ∈ H.alarms.toList.map (·.timer.purpose) ↔ H.router.needs p = true := by
  have hk := (h.attends 0).known
  rw [Journal.pending_of_empty _ _ h.blank] at hk
  rw [(h.attends 0).needs_iff h.onDuty, List.mem_map]
  constructor
  · rintro ⟨a, ha, rfl⟩
    exact ⟨a.timer, a.handle, h.handleOf? ha, rfl⟩
  · rintro ⟨τ, x, hx, rfl⟩
    obtain ⟨due, ha⟩ := (hk x τ).mpr hx
    exact ⟨_, (Table.get?_eq_some_iff.mp ha).1, rfl⟩

/-- No timer is pending while the router does not run. -/
theorem Exact.alarms_eq_empty (h : H.Exact) (hr : H.router.running = false) : H.alarms = ∅ := by
  refine Table.eq_of_mem_iff fun a => ⟨fun ha => ?_, nofun⟩
  have ho := h.handleOf? ha
  rw [(h.attends 0).handleOf?_of_not_running h.onDuty hr] at ho
  cases ho

/-- A pending timer of a tuple is the one that is armed for it. -/
theorem Exact.expire_ne_stale (h : H.Exact) {a : Alarm F} (ha : a ∈ H.alarms) {k : TupleKey F} {g : Nat}
    (hag : a.timer = .expiry k g) (now : Time) : (H.router.toStore.expire k g now).1 ≠ .stale := by
  have ho := h.handleOf? ha
  rw [hag] at ho
  obtain ⟨b, hb, -⟩ := Option.map_eq_some_iff.mp ho
  obtain ⟨harmed, hg⟩ := Option.filter_eq_some_iff.mp hb
  obtain rfl : b.generation = g := of_decide_eq_true hg
  obtain ⟨t, -, -, ⟨-, hx⟩ | ⟨-, hx⟩⟩ := Store.expire_cases (h.attends 0).watched harmed now <;>
    rw [hx] <;> exact nofun

theorem running_operate_stop (H : Hosted F) (now : Time) : (H.operate now .stop).router.running = false :=
  H.router.stop_running

/-- In every run the pending timers are exactly those that the router needs, one for each need. None
is pending while the router does not run, which it does not after a stop, and no timer of a tuple
that comes is a stale one. -/
theorem timers_exact (h : Reaches Next H) :
    (∀ p, (H.alarms.toList.map (·.timer.purpose)).count p = if H.router.needs p then 1 else 0) ∧
      (H.router.running = false → H.alarms = ∅) ∧
      (∀ now, (H.operate now .stop).router.running = false ∧ (H.operate now .stop).alarms = ∅) ∧
      ∀ a ∈ H.alarms, ∀ k g, a.timer = .expiry k g →
        ∀ now, (H.router.toStore.expire k g now).1 ≠ .stale := by
  have he : H.Exact := h.exact fun _ _ hn => hn
  refine ⟨fun p => ?_, he.alarms_eq_empty, fun now => ?_,
    fun a ha k g hag now => he.expire_ne_stale ha hag now⟩
  · rw [he.nodup_purposes.count]
    simp only [he.mem_purposes_iff]
  · have hr := H.running_operate_stop now
    exact ⟨hr, (he.operate rfl).alarms_eq_empty hr⟩

/-- The sample with a HELLO of its own that waits to be sent. -/
def waiting : Hosted .ipv4 := sample.deliver (.ofSeconds 2) ⟨1, .ofSeconds 2, .hello⟩

theorem waiting_reaches : Reaches Next waiting :=
  .next sample_reaches (.delivery _ (by decide +kernel) (by decide +kernel))

/-- The sample, stopped while its HELLO waits. -/
def stopped : Hosted .ipv4 := waiting.operate (.ofSeconds 2) .stop

theorem stopped_reaches : Reaches Next stopped :=
  .next waiting_reaches (.operation _ (Nat.le_refl _) rfl)

/-- Six timers are pending before the stop, one of them for the flush, and none after it. -/
theorem timers_exact_sample :
    (∀ p, (waiting.alarms.toList.map (·.timer.purpose)).count p =
      if waiting.router.needs p then 1 else 0) ∧
      waiting.alarms.size = 6 ∧ waiting.router.needs .flush = true ∧
      (∀ a ∈ waiting.alarms, ∀ k g, a.timer = .expiry k g →
        ∀ now, (waiting.router.toStore.expire k g now).1 ≠ .stale) ∧
      (stopped.router.running = false ∧ stopped.alarms = ∅) ∧
      (∀ p, (stopped.alarms.toList.map (·.timer.purpose)).count p =
        if stopped.router.needs p then 1 else 0) ∧
      ∀ now, (stopped.operate now .stop).alarms = ∅ := by
  obtain ⟨hcount, -, hstop, hstale⟩ := timers_exact waiting_reaches
  obtain ⟨hcount', hidle, hstop', -⟩ := timers_exact stopped_reaches
  exact ⟨hcount, by decide +kernel, by decide +kernel, hstale,
    ⟨(hstop (.ofSeconds 2)).1, hidle (by decide +kernel)⟩, hcount', fun now => (hstop' now).2⟩

end Hosted

end Manet
