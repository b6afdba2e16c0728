import Manet.Config
import Manet.Format.Params

/-!
# Configurations in JSON

Only the interfaces have to be given.
-/

namespace Manet

namespace InterfaceConfig

/-- The fields of an interface. -/
def jsonFields : List Json.Field :=
  [{ name := "name" }, { name := "address" }, { name := "prefix_len" }]

/-- An interface as an object. -/
def toJson (i : InterfaceConfig) : Json :=
  .record [("name", .text i.name), ("address", i.address.toJson),
    ("prefix_len", .natural i.prefixLen.toNat)]

/-- Reads an interface. -/
def ofJson? (j : Json) : Option InterfaceConfig :=
  match j.fields? false jsonFields with
  | some [name, address, prefixLen] => do
    some {
      name := ← name.bind Json.string?
      address := ← address.bind Address.ofJson?
      prefixLen := .ofNat (← prefixLen.bind (Json.natural? (Json.greatest 8))) }
  | _ => none

end InterfaceConfig

namespace Config

/-- The fields of a configuration. -/
def jsonFields : List Json.Field :=
  [{ name := "main_address" }, { name := "port" }, { name := "interfaces" }, { name := "params" }]

/-- A configuration as an object. -/
def toJson (c : Config) : Json :=
  .record [("main_address", Json.ofOption Address.toJson c.main),
    ("port", .natural c.port.toNat),
    ("interfaces", .list (c.interfaces.map InterfaceConfig.toJson)),
    ("params", c.params.toJson)]

/-- Reads a configuration. -/
def ofJson? (j : Json) : Option Config :=
  match j.fields? false jsonFields with
  | some [main, port, interfaces, params] => do
    some {
      main := ← Json.orDefault (Json.nullable? Address.ofJson?) none main
      port := .ofNat (← Json.orDefault (Json.natural? (Json.greatest 16)) standardPort.toNat port)
      interfaces := ← interfaces.bind (Json.list? InterfaceConfig.ofJson?)
      params := ← Json.orDefault Params.ofJson? {} params }
  | _ => none

/-- The text of a configuration. -/
def toText (c : Config) : String := c.toJson.toCompactString

/-- Reads the text of a configuration. -/
def ofText? (s : String) : Option Config := (Json.parse? s).bind ofJson?

end Config

end Manet
