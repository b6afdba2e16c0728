import Manet.Tuple

/-!
# Timers

A router asks its host for one-shot timers. The host answers with a handle, by which the timer can
be cancelled, and brings the `Timer` back when it is due.
-/

namespace Manet

/-- The host's number for a timer it was asked for: 1, 2, and so on. -/
abbrev Handle := Nat

/-- What a router is to do when a timer is due. -/
inductive Timer (F : Family) where
  | hello
  | tc
  | mid
  /-- Sends the messages that wait. -/
  | flush
  /-- Looks at a tuple. The generation tells the timer from earlier ones for the same tuple. -/
  | expiry (key : TupleKey F) (generation : Nat)
deriving DecidableEq

end Manet
