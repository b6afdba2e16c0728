/-!
# JSON values

The values of JSON. Numbers are natural numbers or anything else: no format here gives a meaning to
signs, fractions and exponents. An escape in a string may name half of a surrogate pair, in which
case the string has no text; such strings may stand where the value is ignored.
-/

namespace Manet

/-- The text of a string, absent if an escape in it names half of a surrogate pair. -/
abbrev JsonText := Option String

/-- A JSON value. -/
inductive Json where
  | null
  | bool (b : Bool)
  | natural (n : Nat)
  /-- A number with a sign, a fraction or an exponent, as it is written. -/
  | number (literal : String)
  | string (text : JsonText)
  | list (items : List Json)
  /-- The members in the order in which they are written, names possibly repeated. -/
  | object (members : List (JsonText × Json))

namespace Json

/-- A string with a text. -/
def text (s : String) : Json := string (some s)

/-- An object whose names have a text. -/
def record (members : List (String × Json)) : Json :=
  object (members.map fun (name, value) => (some name, value))

end Json

end Manet
