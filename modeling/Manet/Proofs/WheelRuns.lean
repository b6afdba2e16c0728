import Mathlib.Data.List.Nodup
import Manet.Host.Wheel

/-!
# Runs of a wheel

A `WheelOperation` is everything that a wheel may be asked for, at any reading of the clock and with any
handle, and its `WheelEvent` says what became of it. After any operations a wheel is a priority queue of
the timers that are outstanding, which are those that were scheduled and since then neither cancelled nor
returned (`Wheel.run_isQueue`):

* `Wheel.IsSound.schedule`, `Wheel.IsSound.cancel` and `Wheel.IsSound.remove`: the two tables of a wheel
  stay mirror images of each other, and a handle is given out once;
* `Wheel.Tracks.apply`: what one operation does to the timers that are outstanding;
* `IsOutstanding.of_scheduled`: a timer that was cancelled or returned is not outstanding any more;
* `Wheel.drain_returns`: asking again and again until nothing is due returns what is due in order.
-/

namespace Manet

variable {α : Type}

/-! ## The order of timers -/

/-- Whether `p` goes before `q`: it is due earlier, or at the same time and was scheduled earlier. -/
def Pending.GoesBefore (p q : Pending α) : Prop :=
  p.due < q.due ∨ p.due = q.due ∧ p.handle < q.handle

theorem Pending.GoesBefore.due_le {p q : Pending α} (h : p.GoesBefore q) : p.due ≤ q.due :=
  h.elim Nat.le_of_lt fun h => Nat.le_of_eq h.1

/-! ## What may be asked of a wheel -/

/-- Something that a wheel may be asked for. -/
inductive WheelOperation (α : Type) where
  | schedule (now delay : Time) (payload : α)
  /-- Cancels a handle, whether its timer is pending or not. -/
  | cancel (handle : Handle)
  | pop (now : Time)

/-- What became of an operation. -/
inductive WheelEvent (α : Type) where
  | scheduled (p : Pending α)
  | cancelled (handle : Handle)
  | returned (p : Pending α)
  /-- There was nothing to return. -/
  | idle

/-- The handle that was given out. -/
def WheelEvent.given? : WheelEvent α → Option Handle
  | scheduled p => some p.handle
  | cancelled _ | returned _ | idle => none

/-- The handles that were given out, in order. -/
def handlesGiven (history : List (WheelEvent α)) : List Handle := history.filterMap WheelEvent.given?

/-- A timer was scheduled, and since then neither cancelled nor returned. -/
def IsOutstanding (history : List (WheelEvent α)) (p : Pending α) : Prop :=
  ∃ earlier later, history = earlier ++ .scheduled p :: later ∧
    .cancelled p.handle ∉ later ∧ .returned p ∉ later

namespace Wheel

variable {w : Wheel α}

/-- Carries out an operation, and says what became of it. -/
def apply (w : Wheel α) : WheelOperation α → WheelEvent α × Wheel α
  | .schedule now delay payload =>
    let (handle, w) := w.schedule now delay payload
    (.scheduled ⟨now + delay, handle, payload⟩, w)
  | .cancel handle => (.cancelled handle, w.cancel handle)
  | .pop now =>
    match w.popDue? now with
    | none => (.idle, w)
    | some (p, w) => (.returned p, w)

/-- Carries out operations one after the other. -/
def run (w : Wheel α) : List (WheelOperation α) → List (WheelEvent α) × Wheel α
  | [] => ([], w)
  | op :: ops =>
    let (event, w) := w.apply op
    let (events, w) := w.run ops
    (event :: events, w)

/-! ## Sound wheels -/

/-- A wheel without one of its timers. -/
def remove (w : Wheel α) (p : Pending α) : Wheel α :=
  { w with pending := w.pending.erase (p.due, p.handle), deadlines := w.deadlines.erase p.handle }

theorem issued_cancel (w : Wheel α) (handle : Handle) : (w.cancel handle).issued = w.issued := by
  rw [cancel]
  split <;> rfl

/-- The two tables describe the same timers, and their handles were given out. -/
structure IsSound (w : Wheel α) : Prop where
  mem_deadlines (d : Deadline) : d ∈ w.deadlines ↔ ∃ p ∈ w.pending, p.due = d.due ∧ p.handle = d.handle
  handle_le : ∀ p ∈ w.pending, p.handle ≤ w.issued

namespace IsSound

theorem deadline_mem (h : w.IsSound) {p : Pending α} (hp : p ∈ w.pending) :
    ⟨p.handle, p.due⟩ ∈ w.deadlines :=
  (h.mem_deadlines _).mpr ⟨p, hp, rfl, rfl⟩

theorem handle_inj (h : w.IsSound) {p q : Pending α} (hp : p ∈ w.pending) (hq : q ∈ w.pending)
    (he : p.handle = q.handle) : p = q := by
  have hdue : p.due = q.due :=
    congrArg Deadline.due (Table.eq_of_mem (h.deadline_mem hp) (h.deadline_mem hq) he)
  exact Table.eq_of_mem hp hq (Prod.ext hdue he)

theorem mem_remove (h : w.IsSound) {p q : Pending α} (hp : p ∈ w.pending) :
    q ∈ (w.remove p).pending ↔ q ∈ w.pending ∧ q.handle ≠ p.handle := by
  rw [remove, Table.mem_erase]
  refine and_congr_right fun hq => not_congr ⟨congrArg Prod.snd, fun he => ?_⟩
  rw [h.handle_inj hq hp he]
  rfl

theorem remove (h : w.IsSound) {p : Pending α} (hp : p ∈ w.pending) : (w.remove p).IsSound where
  mem_deadlines d := by
    rw [Wheel.remove, Table.mem_erase, h.mem_deadlines]
    constructor
    · rintro ⟨⟨q, hq, hdue, hhandle⟩, hne⟩
      exact ⟨q, (h.mem_remove hp).mpr ⟨hq, fun he => hne (hhandle.symm.trans he)⟩, hdue, hhandle⟩
    · rintro ⟨q, hq, hdue, hhandle⟩
      obtain ⟨hq, hne⟩ := (h.mem_remove hp).mp hq
      exact ⟨⟨q, hq, hdue, hhandle⟩, fun he => hne (hhandle.trans he)⟩
  handle_le q hq := h.handle_le q ((h.mem_remove hp).mp hq).1

theorem mem_schedule (h : w.IsSound) {now delay : Time} {payload : α} {q : Pending α} :
    q ∈ (w.schedule now delay payload).2.pending ↔
      q = ⟨now + delay, w.issued + 1, payload⟩ ∨ q ∈ w.pending := by
  refine Table.mem_insert.trans (or_congr_right (and_iff_left_of_imp fun hq he => ?_))
  exact absurd (congrArg Prod.snd he) (Nat.ne_of_lt (Nat.lt_succ_of_le (h.handle_le q hq)))

theorem schedule (h : w.IsSound) (now delay : Time) (payload : α) :
    (w.schedule now delay payload).2.IsSound where
  mem_deadlines d := by
    have hfresh : ∀ q ∈ w.pending, q.handle ≠ w.issued + 1 := fun q hq =>
      Nat.ne_of_lt (Nat.lt_succ_of_le (h.handle_le q hq))
    simp only [h.mem_schedule]
    refine Table.mem_insert.trans ?_
    rw [h.mem_deadlines]
    constructor
    · rintro (rfl | ⟨⟨q, hq, hd⟩, -⟩)
      · exact ⟨_, .inl rfl, rfl, rfl⟩
      · exact ⟨q, .inr hq, hd⟩
    · rintro ⟨q, rfl | hq, hdue, hhandle⟩
      · exact .inl (by cases d; cases hdue; cases hhandle; rfl)
      · exact .inr ⟨⟨q, hq, hdue, hhandle⟩, fun he => hfresh q hq (hhandle.trans he)⟩
  handle_le q hq := by
    rcases h.mem_schedule.mp hq with rfl | hq
    · exact Nat.le_refl _
    · exact Nat.le_succ_of_le (h.handle_le q hq)

/-- Only a pending timer can be cancelled. -/
theorem cancel_cases (h : w.IsSound) (handle : Handle) :
    (∃ p ∈ w.pending, p.handle = handle ∧ w.cancel handle = w.remove p) ∨
      w.cancel handle = w ∧ ∀ p ∈ w.pending, p.handle ≠ handle := by
  rw [Wheel.cancel]
  split
  · rename_i hnone
    exact .inr ⟨rfl, fun p hp he => Table.get?_eq_none_iff.mp hnone _ (h.deadline_mem hp) he⟩
  · rename_i d hd
    obtain ⟨hd, hkey⟩ := Table.get?_eq_some_iff.mp hd
    obtain ⟨p, hp, hdue, hhandle⟩ := (h.mem_deadlines d).mp hd
    obtain rfl : p.handle = handle := hhandle.trans hkey
    exact .inl ⟨p, hp, rfl, by rw [Wheel.remove, hdue]⟩

theorem mem_cancel (h : w.IsSound) {handle : Handle} {q : Pending α} :
    q ∈ (w.cancel handle).pending ↔ q ∈ w.pending ∧ q.handle ≠ handle := by
  rcases h.cancel_cases handle with ⟨p, hp, rfl, he⟩ | ⟨he, hne⟩
  · rw [he, h.mem_remove hp]
  · rw [he]
    exact (and_iff_left_of_imp (hne q)).symm

theorem cancel (h : w.IsSound) (handle : Handle) : (w.cancel handle).IsSound := by
  rcases h.cancel_cases handle with ⟨p, hp, -, he⟩ | ⟨he, -⟩
  · rw [he]
    exact h.remove hp
  · rwa [he]

theorem empty : (∅ : Wheel α).IsSound :=
  ⟨fun _ => ⟨nofun, nofun⟩, nofun⟩

end IsSound

/-! ## The first timer -/

theorem first?_eq_some_iff {p : Pending α} :
    w.first? = some p ↔ p ∈ w.pending ∧ ∀ q ∈ w.pending, q = p ∨ p.GoesBefore q := by
  have hsorted := w.pending.sorted
  rw [first?]
  show _ ↔ p ∈ w.pending.toList ∧ ∀ q ∈ w.pending.toList, q = p ∨ p.GoesBefore q
  generalize w.pending.toList = l at hsorted
  cases hsorted with
  | nil => simp
  | @cons q l hq =>
    rw [List.head?_cons, Option.some.injEq]
    constructor
    · rintro rfl
      exact ⟨List.mem_cons_self, List.forall_mem_cons.mpr ⟨.inl rfl, fun r hr => .inr (hq r hr)⟩⟩
    · rintro ⟨hp, hall⟩
      refine (List.mem_cons.mp hp).elim Eq.symm fun hp => ?_
      exact (hall q List.mem_cons_self).resolve_right (KeyOrder.asymm (hq p hp))

theorem due_le_of_first? {p q : Pending α} (h : w.first? = some p) (hq : q ∈ w.pending) : p.due ≤ q.due := by
  rcases (first?_eq_some_iff.mp h).2 q hq with rfl | hbefore
  · exact Nat.le_refl _
  · exact hbefore.due_le

theorem first?_eq_none_iff : w.first? = none ↔ ∀ p, p ∉ w.pending := by
  rw [first?, List.head?_eq_none_iff, List.eq_nil_iff_forall_not_mem]
  exact Iff.rfl

theorem nextDeadline?_eq_none_iff : w.nextDeadline? = none ↔ ∀ p, p ∉ w.pending := by
  rw [nextDeadline?, Option.map_eq_none_iff, first?_eq_none_iff]

theorem nextDeadline?_eq_some_iff {due : Time} :
    w.nextDeadline? = some due ↔ (∃ p ∈ w.pending, p.due = due) ∧ ∀ q ∈ w.pending, due ≤ q.due := by
  rw [nextDeadline?, Option.map_eq_some_iff]
  constructor
  · rintro ⟨p, hfirst, rfl⟩
    exact ⟨⟨p, (first?_eq_some_iff.mp hfirst).1, rfl⟩, fun q hq => due_le_of_first? hfirst hq⟩
  · rintro ⟨⟨p, hp, rfl⟩, hall⟩
    cases hfirst : w.first? with
    | none => exact absurd hp (first?_eq_none_iff.mp hfirst p)
    | some q =>
      have hq := (first?_eq_some_iff.mp hfirst).1
      exact ⟨q, rfl, Nat.le_antisymm (due_le_of_first? hfirst hp) (hall q hq)⟩

theorem popDue?_eq_some_iff {now : Time} {p : Pending α} {w' : Wheel α} :
    w.popDue? now = some (p, w') ↔ w.first? = some p ∧ p.due ≤ now ∧ w.remove p = w' := by
  rw [popDue?]
  cases w.first? with
  | none => simp
  | some q =>
    dsimp only
    split
    · rename_i hdue
      rw [Option.some.injEq, Prod.mk.injEq, Option.some.injEq]
      constructor
      · rintro ⟨rfl, rfl⟩
        exact ⟨rfl, hdue, rfl⟩
      · rintro ⟨rfl, -, rfl⟩
        exact ⟨rfl, rfl⟩
    · rename_i hdue
      refine ⟨nofun, ?_⟩
      rintro ⟨he, hle, -⟩
      exact absurd (Option.some.inj he ▸ hle) hdue

theorem popDue?_eq_none_iff {now : Time} : w.popDue? now = none ↔ ∀ p ∈ w.pending, now < p.due := by
  rw [popDue?]
  cases hfirst : w.first? with
  | none => simpa using fun p hp => absurd hp (first?_eq_none_iff.mp hfirst p)
  | some q =>
    have hq := (first?_eq_some_iff.mp hfirst).1
    dsimp only
    split
    · rename_i hdue
      exact ⟨nofun, fun h => absurd hdue (Nat.not_le.mpr (h q hq))⟩
    · rename_i hdue
      exact ⟨fun _ p hp => Nat.lt_of_lt_of_le (Nat.lt_of_not_le hdue) (due_le_of_first? hfirst hp), fun _ => rfl⟩

/-! ## All that is due -/

theorem size_remove_lt {p : Pending α} (hp : p ∈ w.pending) : (w.remove p).pending.size < w.pending.size :=
  List.length_filter_lt_length_iff_exists.mpr ⟨p, hp, by simp [Keyed.key]⟩

theorem size_popDue?_lt {now : Time} {p : Pending α} {w' : Wheel α} (h : w.popDue? now = some (p, w')) :
    w'.pending.size < w.pending.size := by
  obtain ⟨hfirst, -, rfl⟩ := popDue?_eq_some_iff.mp h
  exact size_remove_lt (first?_eq_some_iff.mp hfirst).1

/-- Asks for a timer again and again until none is due. -/
def drain (w : Wheel α) (now : Time) : List (Pending α) × Wheel α :=
  match _h : w.popDue? now with
  | none => ([], w)
  | some (p, rest) =>
    let (ps, last) := rest.drain now
    (p :: ps, last)
termination_by w.pending.size
decreasing_by exact size_popDue?_lt _h

/-- What is due comes in order, and the rest stays. -/
theorem drain_returns (h : w.IsSound) (now : Time) :
    (w.drain now).1.Pairwise Pending.GoesBefore ∧
      (∀ p, p ∈ (w.drain now).1 ↔ p ∈ w.pending ∧ p.due ≤ now) ∧
      (∀ p, p ∈ (w.drain now).2.pending ↔ p ∈ w.pending ∧ now < p.due) := by
  fun_induction drain w now with
  | case1 w hnone =>
    have hlate := popDue?_eq_none_iff.mp hnone
    refine ⟨.nil, fun p => ⟨nofun, fun ⟨hp, hdue⟩ => ?_⟩, fun p => (and_iff_left_of_imp (hlate p)).symm⟩
    exact absurd hdue (Nat.not_le.mpr (hlate p hp))
  | case2 w p rest hpop ps last hrest ih =>
    obtain ⟨hfirst, hdue, rfl⟩ := popDue?_eq_some_iff.mp hpop
    obtain ⟨hp, hbefore⟩ := first?_eq_some_iff.mp hfirst
    obtain ⟨hsorted, hreturned, hkept⟩ := ih (h.remove hp)
    rw [hrest] at hsorted hreturned hkept
    simp only [h.mem_remove hp] at hreturned hkept
    refine ⟨List.pairwise_cons.mpr ⟨fun q hq => ?_, hsorted⟩, fun q => ?_, fun q => ?_⟩
    · obtain ⟨⟨hq, hne⟩, -⟩ := (hreturned q).mp hq
      exact (hbefore q hq).resolve_left fun he => hne (congrArg Pending.handle he)
    · rw [List.mem_cons, hreturned]
      constructor
      · rintro (rfl | ⟨⟨hq, -⟩, hle⟩)
        · exact ⟨hp, hdue⟩
        · exact ⟨hq, hle⟩
      · rintro ⟨hq, hle⟩
        by_cases he : q.handle = p.handle
        · exact .inl (h.handle_inj hq hp he)
        · exact .inr ⟨⟨hq, he⟩, hle⟩
    · rw [hkept]
      constructor
      · rintro ⟨⟨hq, -⟩, hlt⟩
        exact ⟨hq, hlt⟩
      · rintro ⟨hq, hlt⟩
        refine ⟨⟨hq, fun he => ?_⟩, hlt⟩
        exact absurd hdue (Nat.not_le.mpr (h.handle_inj hq hp he ▸ hlt))

end Wheel

/-! ## What is outstanding -/

section History

variable {history earlier later : List (WheelEvent α)} {e : WheelEvent α} {p q : Pending α}

theorem isOutstanding_concat :
    IsOutstanding (history ++ [e]) p ↔
      e = .scheduled p ∨ IsOutstanding history p ∧ e ≠ .cancelled p.handle ∧ e ≠ .returned p := by
  constructor
  · rintro ⟨earlier, later, he, hcancelled, hreturned⟩
    rcases List.eq_nil_or_concat later with rfl | ⟨later, e', rfl⟩
    · exact .inl (List.singleton_inj.mp (List.append_inj' he rfl).2)
    · rw [List.concat_eq_append] at he hcancelled hreturned
      rw [← List.cons_append, ← List.append_assoc] at he
      obtain ⟨rfl, hlast⟩ := List.append_inj' he rfl
      obtain rfl := List.singleton_inj.mp hlast
      rw [List.mem_append, List.mem_singleton, not_or] at hcancelled hreturned
      exact .inr ⟨⟨earlier, later, rfl, hcancelled.1, hreturned.1⟩, Ne.symm hcancelled.2, Ne.symm hreturned.2⟩
  · rintro (rfl | ⟨⟨earlier, later, rfl, hcancelled, hreturned⟩, hc, hr⟩)
    · exact ⟨history, [], rfl, List.not_mem_nil, List.not_mem_nil⟩
    · refine ⟨earlier, later ++ [e], List.append_assoc .., ?_, ?_⟩
      · simpa using ⟨hcancelled, Ne.symm hc⟩
      · simpa using ⟨hreturned, Ne.symm hr⟩

theorem handle_mem_handlesGiven (h : .scheduled p ∈ history) : p.handle ∈ handlesGiven history :=
  List.mem_filterMap.mpr ⟨_, h, rfl⟩

theorem IsOutstanding.scheduled_mem (h : IsOutstanding history p) : .scheduled p ∈ history := by
  obtain ⟨earlier, later, rfl, -⟩ := h
  exact List.mem_append_right _ List.mem_cons_self

/-- Where no handle is given out twice, a timer that is outstanding was neither cancelled nor returned
since its handle was given out. -/
theorem IsOutstanding.of_scheduled (hgiven : (handlesGiven (earlier ++ .scheduled p :: later)).Nodup)
    (h : IsOutstanding (earlier ++ .scheduled p :: later) q) (hhandle : q.handle = p.handle) :
    .cancelled p.handle ∉ later ∧ .returned p ∉ later := by
  obtain ⟨earlier', later', he, hcancelled, hreturned⟩ := h
  have hfresh : p.handle ∉ handlesGiven earlier ++ handlesGiven later := by
    rw [handlesGiven, List.filterMap_append] at hgiven
    exact (List.nodup_cons.mp (List.nodup_middle.mp hgiven)).1
  rw [List.mem_append, not_or, ← hhandle] at hfresh
  obtain ⟨rfl, hpq, rfl⟩ := (List.append_cons_inj_of_notMem
    (fun hq => hfresh.1 (handle_mem_handlesGiven hq)) (fun hq => hfresh.2 (handle_mem_handlesGiven hq))).mp he
  obtain rfl := WheelEvent.scheduled.inj hpq
  exact ⟨hcancelled, hreturned⟩

end History

namespace Wheel

/-! ## Wheels with a history -/

/-- The wheel knows what is outstanding, and it returned nothing else. -/
structure Tracks (w : Wheel α) (history : List (WheelEvent α)) : Prop extends w.IsSound where
  given : handlesGiven history = List.range' 1 w.issued
  mem_pending (p : Pending α) : p ∈ w.pending ↔ IsOutstanding history p
  returned : ∀ earlier p later, history = earlier ++ .returned p :: later → IsOutstanding earlier p

namespace Tracks

variable {w : Wheel α} {history earlier later : List (WheelEvent α)} {e : WheelEvent α} {p : Pending α}

theorem empty : (∅ : Wheel α).Tracks [] where
  toIsSound := .empty
  given := rfl
  mem_pending p := ⟨nofun, fun ⟨_, _, he, _⟩ => absurd he (by simp)⟩
  returned _ _ _ he := absurd he (by simp)

/-- One operation more. -/
theorem concat {w' : Wheel α} (h : w.Tracks history) (hsound : w'.IsSound)
    (hgiven : List.range' 1 w.issued ++ e.given?.toList = List.range' 1 w'.issued)
    (hpending : ∀ p, p ∈ w'.pending ↔
      e = .scheduled p ∨ p ∈ w.pending ∧ e ≠ .cancelled p.handle ∧ e ≠ .returned p)
    (hreturned : ∀ p, e = .returned p → p ∈ w.pending) : w'.Tracks (history ++ [e]) where
  toIsSound := hsound
  given := by
    rw [← hgiven, ← h.given, handlesGiven, List.filterMap_append]
    cases e <;> rfl
  mem_pending p := by rw [hpending, h.mem_pending, isOutstanding_concat]
  returned earlier p later he := by
    rcases List.eq_nil_or_concat later with rfl | ⟨later, e', rfl⟩
    · obtain ⟨rfl, hlast⟩ := List.append_inj' he rfl
      exact (h.mem_pending p).mp (hreturned p (List.singleton_inj.mp hlast))
    · rw [List.concat_eq_append, ← List.cons_append, ← List.append_assoc] at he
      exact h.returned earlier p later (List.append_inj' he rfl).1

theorem apply (h : w.Tracks history) (op : WheelOperation α) :
    (w.apply op).2.Tracks (history ++ [(w.apply op).1]) := by
  cases op with
  | schedule now delay payload =>
    refine h.concat (h.schedule now delay payload) ?_ (fun p => ?_) nofun
    · show _ = List.range' 1 (w.issued + 1)
      rw [List.range'_concat, Nat.one_mul, Nat.add_comm 1]
      rfl
    · refine h.mem_schedule.trans (or_congr ?_ (and_iff_left ⟨nofun, nofun⟩).symm)
      exact ⟨fun he => he ▸ rfl, fun he => (WheelEvent.scheduled.inj he).symm⟩
  | cancel handle =>
    refine h.concat (h.cancel handle) ?_ (fun p => ?_) nofun
    · show _ = List.range' 1 (w.cancel handle).issued
      rw [issued_cancel]
      exact List.append_nil _
    · refine h.mem_cancel.trans ⟨fun ⟨hp, hne⟩ => .inr ⟨hp, ?_, nofun⟩, ?_⟩
      · exact fun he => hne (WheelEvent.cancelled.inj he).symm
      · rintro (he | ⟨hp, hne, -⟩)
        · cases he
        · exact ⟨hp, fun he => hne (congrArg _ he.symm)⟩
  | pop now =>
    rw [Wheel.apply]
    split
    · exact h.concat h.toIsSound (List.append_nil _)
        (fun p => ⟨fun hp => .inr ⟨hp, nofun, nofun⟩, fun he => (he.resolve_left nofun).1⟩) nofun
    · rename_i p w' hpop
      obtain ⟨hfirst, -, rfl⟩ := popDue?_eq_some_iff.mp hpop
      have hp := (first?_eq_some_iff.mp hfirst).1
      refine h.concat (h.remove hp) (List.append_nil _) (fun q => (h.mem_remove hp).trans ?_)
        fun q he => WheelEvent.returned.inj he ▸ hp
      constructor
      · rintro ⟨hq, hne⟩
        exact .inr ⟨hq, nofun, fun he => hne (congrArg Pending.handle (WheelEvent.returned.inj he).symm)⟩
      · rintro (he | ⟨hq, -, hne⟩)
        · cases he
        · exact ⟨hq, fun he => hne (congrArg _ (h.handle_inj hp hq he.symm))⟩

theorem run (h : w.Tracks history) (ops : List (WheelOperation α)) :
    (w.run ops).2.Tracks (history ++ (w.run ops).1) := by
  induction ops generalizing w history with
  | nil => rwa [Wheel.run, List.append_nil]
  | cons op ops ih =>
    have hrun := ih (h.apply op)
    rwa [List.append_assoc] at hrun

theorem nodup_given (h : w.Tracks history) : (handlesGiven history).Nodup :=
  h.given ▸ List.nodup_range'

/-- A timer that was cancelled or returned is not returned any more. -/
theorem not_returned (h : w.Tracks history) (hhistory : history = earlier ++ e :: later)
    (hp : .scheduled p ∈ earlier) (he : e = .cancelled p.handle ∨ e = .returned p) :
    ∀ q, .returned q ∈ later → q.handle ≠ p.handle := by
  intro q hq hhandle
  obtain ⟨before, since, rfl⟩ := List.append_of_mem hp
  obtain ⟨between, after, rfl⟩ := List.append_of_mem hq
  -- what happened until the timer came again
  have hsplit : history = (before ++ .scheduled p :: (since ++ e :: between)) ++ .returned q :: after := by
    rw [hhistory]
    simp only [List.append_assoc, List.cons_append]
  have hgiven : (handlesGiven (before ++ .scheduled p :: (since ++ e :: between))).Nodup := by
    refine h.nodup_given.sublist (List.Sublist.filterMap _ ?_)
    rw [hsplit]
    exact List.sublist_append_left ..
  obtain ⟨hcancelled, hreturned⟩ := (h.returned _ q after hsplit).of_scheduled hgiven hhandle
  have hmem : e ∈ since ++ e :: between := List.mem_append_right _ List.mem_cons_self
  rcases he with rfl | rfl
  · exact hcancelled hmem
  · exact hreturned hmem

end Tracks

/-! ## Any run -/

/-- A wheel is a priority queue with cancellation. After any operations the pending timers are those that
are outstanding, both tables describe them, and no handle was given out twice. The next deadline is the
least one. The timer that is returned goes before all others and is due, and if there is none, nothing is
due. What was returned was outstanding, and it never comes again; neither does what was cancelled. Asking
until nothing is due returns all that is due in order, and leaves the rest. -/
theorem run_isQueue (ops : List (WheelOperation α)) :
    let history := ((∅ : Wheel α).run ops).1
    let w := ((∅ : Wheel α).run ops).2
    (∀ p, p ∈ w.pending ↔ IsOutstanding history p) ∧
    (∀ d, d ∈ w.deadlines ↔ ∃ p ∈ w.pending, p.due = d.due ∧ p.handle = d.handle) ∧
    (handlesGiven history).Nodup ∧
    (∀ due, w.nextDeadline? = some due ↔ (∃ p ∈ w.pending, p.due = due) ∧ ∀ q ∈ w.pending, due ≤ q.due) ∧
    (w.nextDeadline? = none ↔ ∀ p, p ∉ w.pending) ∧
    (∀ now p, (∃ w', w.popDue? now = some (p, w')) ↔
      p ∈ w.pending ∧ p.due ≤ now ∧ ∀ q ∈ w.pending, q = p ∨ p.GoesBefore q) ∧
    (∀ now, w.popDue? now = none ↔ ∀ p ∈ w.pending, now < p.due) ∧
    (∀ earlier p later, history = earlier ++ .returned p :: later →
      IsOutstanding earlier p ∧ ∀ q, .returned q ∈ later → q.handle ≠ p.handle) ∧
    (∀ earlier p later, history = earlier ++ .cancelled p.handle :: later → .scheduled p ∈ earlier →
      ∀ q, .returned q ∈ later → q.handle ≠ p.handle) ∧
    ∀ now, (w.drain now).1.Pairwise Pending.GoesBefore ∧
      (∀ p, p ∈ (w.drain now).1 ↔ IsOutstanding history p ∧ p.due ≤ now) ∧
      ∀ p, p ∈ (w.drain now).2.pending ↔ IsOutstanding history p ∧ now < p.due := by
  intro history w
  have h : w.Tracks history := Tracks.empty.run ops
  refine ⟨h.mem_pending, h.mem_deadlines, h.nodup_given, fun due => nextDeadline?_eq_some_iff,
    nextDeadline?_eq_none_iff, fun now p => ?_, fun now => popDue?_eq_none_iff,
    fun earlier p later he => ?_, fun earlier p later he hp => h.not_returned he hp (.inl rfl),
    fun now => ?_⟩
  · simp only [popDue?_eq_some_iff, exists_and_left, exists_eq', and_true, first?_eq_some_iff]
    exact and_assoc.trans (and_congr_right fun _ => and_comm)
  · have hout := h.returned earlier p later he
    exact ⟨hout, h.not_returned he hout.scheduled_mem (.inr rfl)⟩
  · simp only [← h.mem_pending]
    exact drain_returns h.toIsSound now

/-- Two timers for the same time, one that is cancelled, one whose handle was cancelled before it was
given out, and a late one. -/
def sampleOperations : List (WheelOperation Char) :=
  [.schedule 0 5 'a', .schedule 3 2 'b', .cancel 4, .schedule 2 1 'c', .pop 2, .cancel 3, .schedule 4 0 'd',
    .pop 4, .cancel 4, .schedule 5 4 'e']

theorem run_isQueue_sample :
    let history := ((∅ : Wheel Char).run sampleOperations).1
    let w := ((∅ : Wheel Char).run sampleOperations).2
    (∀ p, p ∈ w.pending ↔ IsOutstanding history p) ∧ w.nextDeadline? = some 5 ∧
      (∃ w', w.popDue? 5 = some (⟨5, 1, 'a'⟩, w')) ∧
      (∃ earlier later, history = earlier ++ .cancelled 3 :: later ∧ ∀ q, .returned q ∈ later → q.handle ≠ 3) ∧
      (∃ earlier later, history = earlier ++ .returned ⟨4, 4, 'd'⟩ :: later ∧
        IsOutstanding earlier ⟨4, 4, 'd'⟩ ∧ ∀ q, .returned q ∈ later → q.handle ≠ 4) ∧
      ⟨5, 2, 'b'⟩ ∈ (w.drain 5).1 ∧ ⟨9, 5, 'e'⟩ ∈ (w.drain 5).2.pending := by
  intro history w
  obtain ⟨hpending, -, -, hnext, -, hpop, -, hreturned, hcancelled, hdrain⟩ := run_isQueue sampleOperations
  have hmem (p : Pending Char) : p ∈ w.pending ↔ p ∈ [⟨5, 1, 'a'⟩, ⟨5, 2, 'b'⟩, ⟨9, 5, 'e'⟩] := Iff.rfl
  have hfirst : ∀ q ∈ w.pending, q = ⟨5, 1, 'a'⟩ ∨ Pending.GoesBefore ⟨5, 1, 'a'⟩ q := by
    simp [hmem, Pending.GoesBefore]
  have hdue : ∀ q ∈ w.pending, 5 ≤ q.due := by simp [hmem]
  refine ⟨hpending, (hnext 5).mpr ⟨⟨_, (hmem _).mpr List.mem_cons_self, rfl⟩, hdue⟩,
    (hpop 5 _).mpr ⟨(hmem _).mpr List.mem_cons_self, Nat.le_refl 5, hfirst⟩,
    ⟨history.take 5, history.drop 6, rfl, ?_⟩, ⟨history.take 7, history.drop 8, rfl, ?_⟩, ?_, ?_⟩
  · refine hcancelled (history.take 5) ⟨3, 3, 'c'⟩ (history.drop 6) rfl ?_
    exact .tail _ (.tail _ (.tail _ (.head _)))
  · exact hreturned (history.take 7) ⟨4, 4, 'd'⟩ (history.drop 8) rfl
  · exact ((hdrain 5).2.1 _).mpr ⟨(hpending _).mp ((hmem _).mpr (.tail _ (.head _))), Nat.le_refl 5⟩
  · exact ((hdrain 5).2.2 _).mpr ⟨(hpending _).mp ((hmem _).mpr (.tail _ (.tail _ (.head _)))), by decide⟩

end Wheel

end Manet
