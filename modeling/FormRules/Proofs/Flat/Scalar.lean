import FormRules.Json.Value
import FormRules.Toml.Node

/-!
# Values on one line

The values that both formats write without brackets and read as the same thing: strings, truth values
and integers of 64 bits with a sign. A flat document is a list of names with such values; a form is
one whose values are all strings. Besides what a mismatch shows of a value, this module holds the two
sides of it: its compact written form in JSON, and what a TOML reader makes of it.
-/

namespace FormRules

/-- A value without parts. -/
inductive Scalar where
  /-- A string. -/
  | string (text : Text)
  /-- A truth value. -/
  | boolean (b : Bool)
  /-- An integer of 64 bits with a sign. -/
  | integer (n : Int64)

namespace Scalar

/-- Whether a value is a string. -/
def IsString (v : Scalar) : Prop := ∃ t, v = string t

/-- A value as a mismatch shows it. -/
def found : Scalar → Found
  | string t => .string t
  | boolean b => .boolean b
  | integer n => .integer n.toInt

/-- A value in its compact written form. -/
def compact : Scalar → Text
  | string t => Json.quoted t
  | boolean b => Json.booleanText b
  | integer n => Text.signedDecimal n.toInt

/-- A value of a document of named nodes. -/
def node : Scalar → Toml.Node
  | string t => .string t
  | boolean b => .boolean b
  | integer n => .integer n.toInt

end Scalar

/-- A name with a value. -/
abbrev FlatMember := Text × Scalar

/-- A name with its value in the compact form of an object. -/
def compactMember (m : FlatMember) : Text := Json.quoted m.1 ++ ':' :: m.2.compact

/-- The compact object of some names with values. -/
def compactObject (ms : List FlatMember) : Text :=
  '{' :: Text.join [','] (ms.map compactMember) ++ ['}']

/-- Fields with their rule texts, as names with strings. -/
def stringMembers (fields : List (Text × Text)) : List FlatMember :=
  fields.map fun f => (f.1, .string f.2)

/-- A flat document has strings only, or there is a first value that is none. -/
theorem flatMembers_cases (ms : List FlatMember) :
    (∃ fields, ms = stringMembers fields) ∨
      ∃ fields m after, ms = stringMembers fields ++ m :: after ∧ ¬ m.2.IsString := by
  induction ms with
  | nil => exact Or.inl ⟨[], rfl⟩
  | cons m ms ih =>
    by_cases hm : m.2.IsString
    · obtain ⟨name, v⟩ := m
      obtain ⟨t, rfl⟩ := hm
      rcases ih with ⟨fields, rfl⟩ | ⟨fields, m', after, rfl, hm'⟩
      · exact Or.inl ⟨(name, t) :: fields, rfl⟩
      · exact Or.inr ⟨(name, t) :: fields, m', after, rfl, hm'⟩
    · exact Or.inr ⟨[], m, ms, rfl, hm⟩

end FormRules
