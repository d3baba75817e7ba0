import FormRules.Attributes.Basic
import FormRules.Json.Value

/-!
# Attributes as JSON

The attributes of a form are printed as an object with one member for each field, itself an object
with one member for each attribute; a single attribute is printed as an object with its suffix and
its value. Members keep the order of the map that they come from.
-/

namespace FormRules

open Json (Value)

/-- A single attribute as an object. -/
def Attribute.toJson (a : Attribute) : Value :=
  .ofStrings [("suffix".toList, a.suffix), ("value".toList, a.value)]

/-- A map of texts as an object. -/
def Attributes.toJson (m : Attributes) : Value := .ofStrings m.entries

/-- The rule texts of a form as an object. -/
def Form.toJson (form : Form) : Value := .ofStrings form.entries

/-- The attributes of a form as an object of objects. -/
def FormAttributes.toJson (m : FormAttributes) : Value :=
  .object (m.entries.map fun e => (e.1, Attributes.toJson e.2))

end FormRules
