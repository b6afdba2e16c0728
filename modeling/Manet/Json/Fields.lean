import Manet.Json

/-!
# Reading structures from JSON

A structure is written as an object with its field names, and may also be read from a list of its
field values in order. `Json.fields?` brings both forms to one: the values by field, absent where
the object has no such member or the list ends earlier. Members of other names are ignored unless
the structure is closed; a field that is given twice is an error.
-/

namespace Manet.Json

/-- A field of a structure. -/
structure Field where
  name : String
  /-- Whether an object may leave the field out to say `null`. -/
  nullable : Bool := false

/-- Whether the members give no field twice, all have a name with a text and, if the structure is
closed, none has the name of no field. -/
def fit (closed : Bool) (fields : List Field) (members : List (JsonText × Json)) : Bool :=
  (members.all fun m => m.1.any fun name => !closed || fields.any fun f => f.name = name) &&
    fields.all fun f => (members.filter fun m => m.1 = some f.name).length ≤ 1

/-- The value that members give to a field. -/
def member? (members : List (JsonText × Json)) (f : Field) : Option Json :=
  match members.find? fun m => m.1 = some f.name with
  | some m => some m.2
  | none => if f.nullable then some null else none

/-- The values of the fields of a structure, in order. -/
def fields? (closed : Bool) (fields : List Field) : Json → Option (List (Option Json))
  | object members => if fit closed fields members then some (fields.map (member? members)) else none
  | list items =>
    if items.length ≤ fields.length then
      some (items.map some ++ List.replicate (fields.length - items.length) none)
    else none
  | _ => none

/-! ## Plain values -/

/-- Reads a number up to `greatest`. -/
def natural? (greatest : Nat) : Json → Option Nat
  | natural n => if n ≤ greatest then some n else none
  | _ => none

/-- Reads a truth value. -/
def bool? : Json → Option Bool
  | bool b => some b
  | _ => none

/-- Reads a string that has a text. -/
def string? : Json → Option String
  | string text => text
  | _ => none

/-- Reads a list. -/
def list? {α : Type} (read : Json → Option α) : Json → Option (List α)
  | list items => items.mapM read
  | _ => none

/-- Reads a value that may be missing, written as `null`. -/
def nullable? {α : Type} (read : Json → Option α) : Json → Option (Option α)
  | null => some none
  | j => (read j).map some

/-- Writes a value that may be missing. -/
def ofOption {α : Type} (write : α → Json) : Option α → Json
  | none => null
  | some a => write a

/-- Reads the value of a field that has a default. -/
def orDefault {α : Type} (read : Json → Option α) (default : α) : Option Json → Option α
  | none => some default
  | some j => read j

end Manet.Json
