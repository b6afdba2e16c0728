import Manet.Json

/-!
# JSON as text

Two ways to write a value: without any blanks, and spread over lines with two blanks for each
level. Strings escape the quote, the backslash and controls, nothing else.
-/

namespace Manet.Json

/-! ## Strings -/

/-- A character inside a string. -/
def escapedChar (c : Char) : List Char :=
  if c = '"' then ['\\', '"']
  else if c = '\\' then ['\\', '\\']
  else if c = '\n' then ['\\', 'n']
  else if c = '\r' then ['\\', 'r']
  else if c = '\t' then ['\\', 't']
  else if c.toNat = 8 then ['\\', 'b']
  else if c.toNat = 12 then ['\\', 'f']
  else if c.toNat < 32 then
    ['\\', 'u', '0', '0', Nat.digitChar (c.toNat / 16), Nat.digitChar (c.toNat % 16)]
  else [c]

/-- A string in quotes. Text that is absent is written as the empty string. -/
def quotedText (text : JsonText) : List Char :=
  '"' :: (text.getD "").toList.flatMap escapedChar ++ ['"']

/-- A value that holds no other. -/
def scalar : Json → List Char
  | null => ['n', 'u', 'l', 'l']
  | bool true => ['t', 'r', 'u', 'e']
  | bool false => ['f', 'a', 'l', 's', 'e']
  | natural n => Nat.toDigits 10 n
  | number literal => literal.toList
  | string text => quotedText text
  | list _ | object _ => []

/-! ## Compact text -/

mutual

/-- The value without blanks. -/
def compact : Json → List Char
  | list items => '[' :: compactItems items ++ [']']
  | object members => '\x7b' :: compactMembers members ++ ['\x7d']
  | value => scalar value

/-- Items separated by commas. -/
def compactItems : List Json → List Char
  | [] => []
  | [item] => compact item
  | item :: items => compact item ++ ',' :: compactItems items

/-- Members separated by commas. -/
def compactMembers : List (JsonText × Json) → List Char
  | [] => []
  | [(name, value)] => quotedText name ++ ':' :: compact value
  | (name, value) :: members =>
    quotedText name ++ ':' :: compact value ++ ',' :: compactMembers members

end

/-! ## Text over lines -/

/-- A line break and the blanks of a level. -/
def newline (level : Nat) : List Char := '\n' :: List.replicate (2 * level) ' '

mutual

/-- The value at the given level, one item or member on each line. -/
def prettyAt (level : Nat) : Json → List Char
  | list [] => ['[', ']']
  | list (item :: items) =>
    '[' :: newline (level + 1) ++ prettyAt (level + 1) item ++ prettyItems (level + 1) items ++
      newline level ++ [']']
  | object [] => ['\x7b', '\x7d']
  | object ((name, value) :: members) =>
    '\x7b' :: newline (level + 1) ++ quotedText name ++ ':' :: ' ' :: prettyAt (level + 1) value ++
      prettyMembers (level + 1) members ++ newline level ++ ['\x7d']
  | value => scalar value

/-- The items after the first. -/
def prettyItems (level : Nat) : List Json → List Char
  | [] => []
  | item :: items => ',' :: newline level ++ prettyAt level item ++ prettyItems level items

/-- The members after the first. -/
def prettyMembers (level : Nat) : List (JsonText × Json) → List Char
  | [] => []
  | (name, value) :: members =>
    ',' :: newline level ++ quotedText name ++ ':' :: ' ' :: prettyAt level value ++
      prettyMembers level members

end

/-- The value without blanks, as a string. -/
def toCompactString (j : Json) : String := String.ofList j.compact

/-- The value over lines, as a string. -/
def toPrettyString (j : Json) : String := String.ofList (j.prettyAt 0)

end Manet.Json
