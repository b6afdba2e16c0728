import Manet.Journal
import Manet.Tables

/-!
# The tuple store

A `Store` is the tables together with the timers that watch over them. While a tuple that can
expire is stored, one timer is armed for its key; `TimerBook` remembers the handle and the
generation of each armed timer. A tuple may be refreshed in place without touching its timer: when
the timer fires, `Store.expire` finds the tuple still valid and arms another. Timers of an earlier
generation are stale and do nothing.
-/

namespace Manet

variable {F : Family}

/-- An armed timer. -/
structure Armed (F : Family) where
  key : TupleKey F
  handle : Handle
  generation : Nat
deriving DecidableEq

instance : Keyed (Armed F) (TupleKey F) := ⟨Armed.key⟩

/-- The armed timers, at most one for each key, and the generation of the latest. -/
structure TimerBook (F : Family) where
  armed : Table (Armed F)
  generation : Nat
deriving DecidableEq

/-- The timer book of a new store. -/
def TimerBook.empty : TimerBook F := ⟨∅, 0⟩

instance : EmptyCollection (TimerBook F) := ⟨TimerBook.empty⟩

/-- The tables, the timers that watch over them and the calls to the host. -/
structure Store (F : Family) where
  tables : Tables F
  book : TimerBook F
  journal : Journal F

/-- What a fired timer led to. -/
inductive Expiry (F : Family) where
  /-- The tuple was removed. -/
  | expired (t : TimedTuple F)
  /-- The tuple is valid for longer and has a new timer. -/
  | pending
  /-- The timer was not the armed one, or its tuple is gone. -/
  | stale
deriving DecidableEq

namespace Store

/-- An empty store whose host has given out no handle yet. -/
def empty : Store F := ⟨∅, ∅, .blank 0⟩

instance : EmptyCollection (Store F) := ⟨empty⟩

/-! ## Timers -/

/-- Cancels the timer for the key, if one is armed. -/
def disarm (s : Store F) (k : TupleKey F) : Store F :=
  match s.book.armed.get? k with
  | none => s
  | some a =>
    { s with
      book := { s.book with armed := s.book.armed.erase k }
      journal := s.journal.call (.cancel a.handle) }

/-- Arms a timer of a new generation for the key, in the place of the one that is armed. -/
def arm (s : Store F) (k : TupleKey F) (delay : Time) : Store F :=
  let s := s.disarm k
  let generation := s.book.generation + 1
  { s with
    book := { armed := s.book.armed.insert ⟨k, s.journal.nextHandle, generation⟩, generation }
    journal := s.journal.schedule delay (.expiry k generation) }

/-- Whether a timer is armed for the key. -/
def hasTimer (s : Store F) (k : TupleKey F) : Bool := s.book.armed.contains k

/-- Arms or disarms the timer for the key so that it fires at the deadline, if there is one. -/
def watch (s : Store F) (k : TupleKey F) (deadline : Option Time) (now : Time) : Store F :=
  match deadline with
  | some due => s.arm k (due - now)
  | none => s.disarm k

/-! ## Tuples -/

/-- Stores a tuple and arms its timer. -/
def insert (s : Store F) (t : TimedTuple F) (now : Time) : Store F :=
  let s := s.watch t.key (t.deadline now) now
  { s with tables := s.tables.put t }

/-- Writes a tuple back under its key without touching its timer. -/
def overwrite (s : Store F) (t : TimedTuple F) : Store F := { s with tables := s.tables.write t }

/-- Removes a tuple and cancels its timer. -/
def erase (s : Store F) (k : TupleKey F) : Store F :=
  match s.tables.get? k with
  | none => s
  | some _ =>
    let s := s.disarm k
    { s with tables := s.tables.drop k }

/-- Removes the tuples with the given keys. -/
def eraseAll (s : Store F) (ks : List (TupleKey F)) : Store F := ks.foldl erase s

/-- Arms a timer for a tuple that was written back with other times. -/
def rearm (s : Store F) (k : TupleKey F) (now : Time) : Store F :=
  match (s.tables.get? k).bind (·.deadline now) with
  | some due => s.arm k (due - now)
  | none => s

/-- Answers a timer that fired: removes the tuple if its validity has ended, else arms the next
timer for it. -/
def expire (s : Store F) (k : TupleKey F) (generation : Nat) (now : Time) : Expiry F × Store F :=
  if (s.book.armed.get? k).any fun a => a.generation = generation then
    let s := { s with book := { s.book with armed := s.book.armed.erase k } }
    match s.tables.get? k with
    | none => (.stale, s)
    | some t =>
      if t.isExpired now then (.expired t, { s with tables := s.tables.drop k })
      else (.pending, s.rearm k now)
  else (.stale, s)

/-- Cancels all timers and empties the tables. The advertised set keeps its number. -/
def clear (s : Store F) : Store F where
  tables := .withAnsn s.tables.ansn
  book := ∅
  journal := s.book.armed.toList.foldl (fun j a => j.call (.cancel a.handle)) s.journal

end Store

end Manet
