import Manet.Text.CharSet.DefaultIgnorable
import Manet.Text.CharSet.ExtendingMark
import Manet.Text.CharSet.Other
import Manet.Text.CharSet.Separator

/-!
# Quoted text

Names in messages to the operator stand in double quotes. A quote, a backslash and characters that
would not be seen are written as escapes: the usual ones by letter, all others by their number in
braces. What is seen on its own is decided by the properties of the Unicode standard; of the ASCII
characters these are the blank and the printable ones (`visible_of_ascii`).
-/

namespace Manet.Text

/-- The characters that would not be seen, or not in a place of their own; the blank is among them. -/
def withoutGlyph : List CharSet :=
  [.other, .separator, .extendingMark, .defaultIgnorable]

/-- Whether the character can be shown as it is. -/
def visible (c : Char) : Bool := c = ' ' || !withoutGlyph.any (·.contains c)

/-- The blank and the printable ASCII characters are shown as they are. -/
theorem visible_of_ascii {c : Char} (h : 0x20 ≤ c.toNat) (h' : c.toNat < 0x7f) :
    visible c = true := by
  have all : ∀ n < 0x7f, 0x20 < n → withoutGlyph.any (CharSet.cover n ·.ranges) = false := by
    decide +kernel
  by_cases e : c = ' '
  · simp [visible, e]
  · have ne : c.toNat ≠ 0x20 := fun n => e (Char.toNat_inj.mp n)
    simp only [visible, CharSet.contains, all c.toNat h' (by omega), Bool.not_false, Bool.or_true]

/-- A character inside quotes. -/
def quotedChar (c : Char) : List Char :=
  if c = '"' then ['\\', '"']
  else if c = '\\' then ['\\', '\\']
  else if c = '\n' then ['\\', 'n']
  else if c = '\t' then ['\\', 't']
  else if c = '\r' then ['\\', 'r']
  else if c.toNat = 0 then ['\\', '0']
  else if visible c then [c]
  else ['\\', 'u', '\x7b'] ++ Nat.toDigits 16 c.toNat ++ ['\x7d']

/-- The text in quotes. -/
def quoted (s : String) : String := String.ofList ('"' :: s.toList.flatMap quotedChar ++ ['"'])

end Manet.Text
