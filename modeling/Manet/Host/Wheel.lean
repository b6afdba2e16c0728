import Manet.Journal

/-!
# Timer wheels

A `Wheel` keeps the timers that a host was asked for, ordered by the time they are due and then by
their handles. A second table finds the due time of a handle, so that a timer can be cancelled by
its handle alone.
-/

namespace Manet

/-- A timer that was not due yet. -/
structure Pending (α : Type) where
  due : Time
  handle : Handle
  payload : α

instance {α : Type} : Keyed (Pending α) (Time × Handle) := ⟨fun p => (p.due, p.handle)⟩

/-- When the timer with a handle is due. -/
structure Deadline where
  handle : Handle
  due : Time
deriving DecidableEq

instance : Keyed Deadline Handle := ⟨Deadline.handle⟩

/-- Timers by due time, due times by handle, and the number of handles given out. -/
structure Wheel (α : Type) where
  issued : Nat
  pending : Table (Pending α)
  deadlines : Table Deadline

namespace Wheel

variable {α : Type}

/-- A wheel that never had a timer. -/
def empty : Wheel α := ⟨0, ∅, ∅⟩

instance : EmptyCollection (Wheel α) := ⟨empty⟩

/-- Adds a timer that is due after `delay`; it gets the next handle. -/
def schedule (w : Wheel α) (now delay : Time) (payload : α) : Handle × Wheel α :=
  let handle := w.issued + 1
  let due := now + delay
  (handle, {
    issued := handle
    pending := w.pending.insert { due, handle, payload }
    deadlines := w.deadlines.insert { handle, due } })

/-- Removes the timer with the given handle, if it is still there. -/
def cancel (w : Wheel α) (h : Handle) : Wheel α :=
  match w.deadlines.get? h with
  | none => w
  | some d =>
    { w with pending := w.pending.erase (d.due, h), deadlines := w.deadlines.erase h }

/-- The first timer. -/
def first? (w : Wheel α) : Option (Pending α) := w.pending.toList.head?

/-- When the first timer is due. -/
def nextDeadline? (w : Wheel α) : Option Time := w.first?.map (·.due)

/-- Takes the first timer out if it is due. -/
def popDue? (w : Wheel α) (now : Time) : Option (Pending α × Wheel α) :=
  match w.first? with
  | none => none
  | some p =>
    if p.due ≤ now then
      some (p, { w with
        pending := w.pending.erase (p.due, p.handle)
        deadlines := w.deadlines.erase p.handle })
    else none

/-- Carries out a router's call as far as it concerns timers. -/
def carryOut {F : Family} (payload : Timer F → α) (now : Time) (w : Wheel α) : Call F → Wheel α
  | .schedule _ delay timer => (w.schedule now delay (payload timer)).2
  | .cancel handle => w.cancel handle
  | _ => w

end Wheel

end Manet
