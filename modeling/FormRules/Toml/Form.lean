import FormRules.Attributes.Basic
import FormRules.Toml.Document
import FormRules.Toml.Fault

/-!
# Forms in TOML

A form is written as a document whose outermost table holds nothing but strings: its fields with their
rule texts, in the order of their first mention. The first entry that is no string is the fault.
-/

namespace FormRules.Toml

/-- The rule text that an entry of the outermost table gives. -/
def rulesOf : Node → Except Fault Text
  | .string t => .ok t
  | v => .error (.mismatch ⟨v.found, .string⟩)

/-- The fields with their rule texts that the entries of the outermost table give. -/
def membersOf (es : Entries) : Except Fault (List (Text × Text)) :=
  es.mapM fun e => (rulesOf e.2).map fun rules => (e.1, rules)

/-- Reads a form. -/
def readForm (t : Text) : Except Fault Form :=
  match readDocument t with
  | none => .error .malformed
  | some es => (membersOf es).map OrderedMap.ofList

end FormRules.Toml
