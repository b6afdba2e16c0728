/-!
# Sets of characters

A set of characters is kept as closed ranges of their numbers, ascending and apart, so that a search
ends at the first range above the number that is looked for. `contains_iff` says that it misses
nothing by that.

The sets `other`, `separator`, `extendingMark` and `defaultIgnorable` in the modules below follow
from properties of characters in the Unicode standard, version 17.0.
-/

namespace Manet.Text

namespace CharSet

/-- Whether the ranges ascend from `least` on, none of them empty and no two of them touching. -/
def ascend (least : Nat) : List (Nat × Nat) → Bool
  | [] => true
  | (low, high) :: rest => least ≤ low && low ≤ high && ascend (high + 2) rest

/-- Whether one of the ascending ranges holds the number. -/
def cover (n : Nat) : List (Nat × Nat) → Bool
  | [] => false
  | (low, high) :: rest => low ≤ n && (n ≤ high || cover n rest)

/-- Ascending ranges begin no lower than they ascend from. -/
theorem le_of_ascend {least : Nat} {ranges : List (Nat × Nat)} (h : ascend least ranges = true) :
    ∀ r ∈ ranges, least ≤ r.1 := by
  induction ranges generalizing least with
  | nil => simp
  | cons r rest ih =>
    simp only [ascend, Bool.and_eq_true, decide_eq_true_eq] at h
    obtain ⟨⟨low, nonempty⟩, later⟩ := h
    intro s hs
    rcases List.mem_cons.mp hs with rfl | hs
    · exact low
    · have := ih later s hs
      omega

/-- The search through ascending ranges finds every number that one of them holds. -/
theorem cover_iff {n least : Nat} {ranges : List (Nat × Nat)} (h : ascend least ranges = true) :
    cover n ranges = true ↔ ∃ r ∈ ranges, r.1 ≤ n ∧ n ≤ r.2 := by
  induction ranges generalizing least with
  | nil => simp [cover]
  | cons r rest ih =>
    simp only [ascend, Bool.and_eq_true, decide_eq_true_eq] at h
    obtain ⟨⟨_, nonempty⟩, later⟩ := h
    simp only [cover, Bool.and_eq_true, Bool.or_eq_true, decide_eq_true_eq, ih later,
      List.mem_cons, exists_eq_or_imp]
    constructor
    · rintro ⟨low, high | found⟩
      · exact .inl ⟨low, high⟩
      · exact .inr found
    · rintro (⟨low, high⟩ | ⟨s, hs, low, high⟩)
      · exact ⟨low, .inl high⟩
      · have := le_of_ascend later s hs
        exact ⟨by omega, .inr ⟨s, hs, low, high⟩⟩

end CharSet

/-- A set of characters. -/
structure CharSet where
  /-- The least and the greatest number of each range. -/
  ranges : List (Nat × Nat)
  ascending : CharSet.ascend 0 ranges = true

namespace CharSet

/-- Whether the character is in the set. -/
def contains (s : CharSet) (c : Char) : Bool := cover c.toNat s.ranges

theorem contains_iff {s : CharSet} {c : Char} :
    s.contains c = true ↔ ∃ r ∈ s.ranges, r.1 ≤ c.toNat ∧ c.toNat ≤ r.2 :=
  cover_iff s.ascending

end CharSet

end Manet.Text
