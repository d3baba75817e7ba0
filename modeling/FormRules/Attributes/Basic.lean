import FormRules.OrderedMap
import FormRules.Rule.Recognized

/-!
# Attributes of fields and forms

The attributes of a field are an ordered map from attribute keys to values. They are written by the
field's rules in order, so a key stands where a rule first wrote it and holds what a rule last wrote
to it. A form is an ordered map from field names to rule texts, and its attributes list the same
fields in the same order, a field without attributes included.
-/

namespace FormRules

/-- The attributes of one field: keys with values, in the order of their first writing. -/
abbrev Attributes := OrderedMap Text Text

/-- A form: its fields with their rule texts, in the order of their declaration. -/
abbrev Form := OrderedMap Text Text

/-- The attributes of a form: those of each field, in the order of the fields. -/
abbrev FormAttributes := OrderedMap Text Attributes

/-- What the rules of a rule text write, one key and value after the other. -/
def ReadingPolicy.writes (policy : ReadingPolicy) (rules : Text) : List (Text × Text) :=
  (Rule.ofText policy rules).flatMap fun r => r.attributes.map fun a => (a.key, a.value)

/-- The attributes of a field that is declared with a rule text. -/
def ReadingPolicy.attributes (policy : ReadingPolicy) (rules : Text) : Attributes :=
  OrderedMap.ofList (policy.writes rules)

namespace Form

/-- The attributes of a form, read with a policy. -/
def attributes (form : Form) (policy : ReadingPolicy := default) : FormAttributes :=
  form.map policy.attributes

end Form

/-- Whether two outputs hold the same fields with the same attributes, in whatever order. -/
def FormAttributes.agrees (m n : FormAttributes) : Bool :=
  OrderedMap.agrees (OrderedMap.agrees (· == ·)) m n

end FormRules
