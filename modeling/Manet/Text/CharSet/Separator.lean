import Manet.Text.CharSet

/-!
# Separators

Blanks of all widths and the ends of lines and paragraphs: the general category Separator.
-/

namespace Manet.Text.CharSet

/-- The ranges of `separator`. -/
def separatorRanges : List (Nat × Nat) :=
  [(0x20, 0x20), (0xa0, 0xa0), (0x1680, 0x1680), (0x2000, 0x200a), (0x2028, 0x2029),
   (0x202f, 0x202f), (0x205f, 0x205f), (0x3000, 0x3000)]

theorem ascend_separatorRanges : ascend 0 separatorRanges = true := by decide +kernel

/-- Blanks of all widths and the ends of lines and paragraphs. -/
def separator : CharSet := ⟨separatorRanges, ascend_separatorRanges⟩

end Manet.Text.CharSet
