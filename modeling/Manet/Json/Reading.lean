import Manet.Json
import Manet.Text.Hex

/-!
# Reading JSON text

`Json.parse?` reads a text that is one JSON value with nothing but blanks around it. Names of
members may repeat, and strings may hold escapes without a text; what becomes of those is for the
reader of the value to say.
-/

namespace Manet.Json

/-- Whether a character may stand between the parts of a value. -/
def isBlank (c : Char) : Bool := c = ' ' ∨ c = '\n' ∨ c = '\t' ∨ c = '\r'

/-- Skips blanks. -/
def skipBlanks (cs : List Char) : List Char := cs.dropWhile isBlank

/-! ## Strings -/

/-- The character that a letter after a backslash stands for. -/
def escapeLetter? (c : Char) : Option Char :=
  if c = '"' ∨ c = '\\' ∨ c = '/' then some c
  else if c = 'b' then some '\x08'
  else if c = 'f' then some '\x0c'
  else if c = 'n' then some '\n'
  else if c = 'r' then some '\r'
  else if c = 't' then some '\t'
  else none

/-- Whether the number is that of the first half of a surrogate pair. -/
def isLeading (n : Nat) : Bool := 0xd800 ≤ n ∧ n < 0xdc00

/-- Whether the number is that of the second half of a surrogate pair. -/
def isTrailing (n : Nat) : Bool := 0xdc00 ≤ n ∧ n < 0xe000

/-- The character that a surrogate pair stands for. -/
def pairedChar (leading trailing : Nat) : Char :=
  Char.ofNat (0x10000 + (leading - 0xd800) * 0x400 + (trailing - 0xdc00))

/-- The characters that code units stand for, two for a surrogate pair; half of a pair stands for
none. -/
def ofUnits? : List Nat → Option (List Char)
  | [] => some []
  | n :: ns =>
    if isLeading n then
      match ns with
      | m :: ms => if isTrailing m then (ofUnits? ms).map (pairedChar n m :: ·) else none
      | [] => none
    else if isTrailing n then none
    else (ofUnits? ns).map (Char.ofNat n :: ·)

/-- Reads a string from behind its first quote, as code units: the numbers of its characters and
those that escapes give. -/
def units? : List Char → Option (List Nat × List Char)
  | '"' :: cs => some ([], cs)
  | '\\' :: 'u' :: a :: b :: c :: d :: cs =>
    match Text.hexNumber? [a, b, c, d], units? cs with
    | some n, some (ns, rest) => some (n :: ns, rest)
    | _, _ => none
  | '\\' :: c :: cs =>
    match escapeLetter? c, units? cs with
    | some c, some (ns, rest) => some (c.toNat :: ns, rest)
    | _, _ => none
  | c :: cs =>
    if c.toNat < 32 then none else (units? cs).map fun (ns, rest) => (c.toNat :: ns, rest)
  | [] => none

/-- Reads a string from behind its first quote. -/
def text? (cs : List Char) : Option (JsonText × List Char) :=
  (units? cs).map fun (ns, rest) => ((ofUnits? ns).map String.ofList, rest)

/-! ## Numbers -/

/-- Reads digits, at least one. -/
def digits? (cs : List Char) : Option (List Char × List Char) :=
  if cs.takeWhile Char.isDigit = [] then none
  else some (cs.takeWhile Char.isDigit, cs.dropWhile Char.isDigit)

/-- Skips a fraction, if there is one. -/
def skipFraction? : List Char → Option (List Char)
  | '.' :: cs => (digits? cs).map Prod.snd
  | cs => some cs

/-- Skips a sign, if there is one. -/
def skipSign : List Char → List Char
  | '+' :: cs => cs
  | '-' :: cs => cs
  | cs => cs

/-- Skips an exponent, if there is one. -/
def skipExponent? : List Char → Option (List Char)
  | 'e' :: cs => (digits? (skipSign cs)).map Prod.snd
  | 'E' :: cs => (digits? (skipSign cs)).map Prod.snd
  | cs => some cs

/-- Reads an unsigned integer without needless zeros. -/
def integer? (cs : List Char) : Option (List Char × List Char) :=
  (digits? cs).filter fun (digits, _) => digits.head? = some '0' → digits.length = 1

/-- Reads what follows an integer, and says whether it is nothing. -/
def numberTail? (cs : List Char) : Option (Bool × List Char) := do
  let afterFraction ← skipFraction? cs
  let rest ← skipExponent? afterFraction
  some (rest.length = cs.length, rest)

/-- Reads a number. -/
def number? (cs : List Char) : Option (Json × List Char) :=
  match cs with
  | '-' :: cs' => do
    let (_, rest) ← integer? cs'
    let (_, rest) ← numberTail? rest
    some (number (String.ofList (cs.take (cs.length - rest.length))), rest)
  | _ => do
    let (digits, rest) ← integer? cs
    let (plain, rest) ← numberTail? rest
    if plain then some (natural (Nat.ofDigitChars 10 digits 0), rest)
    else some (number (String.ofList (cs.take (cs.length - rest.length))), rest)

/-! ## Values -/

mutual

/-- Reads a value, with blanks before it. Each part of a value takes one unit of fuel at most for
each of its characters and one for itself. -/
def value? : (fuel : Nat) → List Char → Option (Json × List Char)
  | 0, _ => none
  | fuel + 1, cs =>
    match skipBlanks cs with
    | '"' :: cs => (text? cs).map fun (text, rest) => (string text, rest)
    | '[' :: cs =>
      match skipBlanks cs with
      | ']' :: rest => some (list [], rest)
      | _ => (items? fuel cs).map fun (items, rest) => (list items, rest)
    | '\x7b' :: cs =>
      match skipBlanks cs with
      | '\x7d' :: rest => some (object [], rest)
      | _ => (members? fuel cs).map fun (members, rest) => (object members, rest)
    | 'n' :: 'u' :: 'l' :: 'l' :: rest => some (null, rest)
    | 't' :: 'r' :: 'u' :: 'e' :: rest => some (bool true, rest)
    | 'f' :: 'a' :: 'l' :: 's' :: 'e' :: rest => some (bool false, rest)
    | cs => number? cs

/-- Reads items up to the end of a list, at least one. -/
def items? : (fuel : Nat) → List Char → Option (List Json × List Char)
  | 0, _ => none
  | fuel + 1, cs =>
    match value? fuel cs with
    | none => none
    | some (item, cs) =>
      match skipBlanks cs with
      | ',' :: cs => (items? fuel cs).map fun (items, rest) => (item :: items, rest)
      | ']' :: rest => some ([item], rest)
      | _ => none

/-- Reads members up to the end of an object, at least one. -/
def members? : (fuel : Nat) → List Char → Option (List (JsonText × Json) × List Char)
  | 0, _ => none
  | fuel + 1, cs =>
    match skipBlanks cs with
    | '"' :: cs =>
      match text? cs with
      | none => none
      | some (name, cs) =>
        match skipBlanks cs with
        | ':' :: cs =>
          match value? fuel cs with
          | none => none
          | some (value, cs) =>
            match skipBlanks cs with
            | ',' :: cs => (members? fuel cs).map fun (members, rest) => ((name, value) :: members, rest)
            | '\x7d' :: rest => some ([(name, value)], rest)
            | _ => none
        | _ => none
    | _ => none

end

/-- Reads a text that is one value. -/
def parseChars? (cs : List Char) : Option Json :=
  match value? (2 * cs.length + 2) cs with
  | some (j, rest) => if skipBlanks rest = [] then some j else none
  | none => none

/-- Reads a text that is one value. -/
def parse? (s : String) : Option Json := parseChars? s.toList

end Manet.Json
