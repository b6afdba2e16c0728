import Manet.Binary64

/-!
# Jitter

Emissions are moved by a random delay, so that neighbours do not transmit in lockstep. A delay is a
random fraction of the longest one, computed in double precision seconds and rounded to the nearest
nanosecond. Random words come from an `Entropy`, a stream with a position.
-/

namespace Manet

/-- A stream of random words, of which the first `drawn` are used up. -/
structure Entropy where
  word : Nat → UInt64
  drawn : Nat

namespace Entropy

/-- The words of a list over and over, zeros if it has none. -/
def cycle (words : Array UInt64) : Entropy where
  word i := words.getD (i % words.size) 0
  drawn := 0

/-- The next word. -/
def draw (e : Entropy) : UInt64 × Entropy := (e.word e.drawn, { e with drawn := e.drawn + 1 })

end Entropy

namespace Jitter

/-- A duration in double precision seconds: whole seconds and nanoseconds are converted apart. -/
def seconds (t : Time) : Rat :=
  Binary64.nearest (Binary64.nearest (t / 1000000000 : Nat) +
    Binary64.nearest (mkRat (t % 1000000000) 1000000000))

/-- The fraction that a random word stands for: its upper 53 bits, in `[0, 1)`. -/
def fraction (w : UInt64) : Rat := mkRat (w.toNat >>> 11 : Nat) (1 <<< 53)

/-- The fraction of `longest` that a random word stands for. -/
def delay (longest : Time) (w : UInt64) : Time :=
  Binary64.roundToInteger (Binary64.nearest (fraction w * seconds longest) * 1000000000)

/-- A random delay up to `longest`. Nothing is drawn if there is nothing to choose from. -/
def draw (longest : Time) (e : Entropy) : Time × Entropy :=
  if longest = 0 then (0, e)
  else
    let (w, e) := e.draw
    (delay longest w, e)

end Jitter

end Manet
