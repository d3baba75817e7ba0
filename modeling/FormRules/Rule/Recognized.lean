import FormRules.Rule.Basic

/-!
# Recognized rules and the attributes they produce

The client-side validator reads its checks from attributes of an input element. A recognized rule
has a row in a table: one column, or two, each naming an attribute by its suffix and saying how the
attribute's value is made from the rule's arguments (`ValueForm`). So the suffixes that a rule
produces hang on its name alone. Names are matched exactly.

A rule without a row produces one attribute: its own name as the suffix, and as the value its
arguments with spaces between them, or its name once more if it has no list of arguments. Producing
attributes never fails.
-/

namespace FormRules

/-- One produced attribute, named by what follows the common stem of all attribute keys. -/
structure Attribute where
  /-- The key without the common stem. -/
  suffix : Text
  /-- The value. -/
  value : Text
  deriving DecidableEq, Repr, Inhabited

/-- The stem that every attribute key begins with. -/
def Attribute.stem : Text := "data-parsley-".toList

/-- The key of an attribute. -/
def Attribute.key (a : Attribute) : Text := Attribute.stem ++ a.suffix

/-- How the value of an attribute is made from a rule's arguments. -/
inductive ValueForm where
  /-- A fixed text, whatever the arguments. -/
  | constant (text : Text)
  /-- The first argument. -/
  | first
  /-- A pattern for any non-empty text that does not begin with the first argument. -/
  | notFirst
  /-- All arguments with commas between them, in square brackets. -/
  | bracketed
  /-- A pattern of which each argument is an alternative. -/
  | anyOf
  /-- A pattern for any non-empty text that begins with none of the arguments. -/
  | noneOf
  deriving DecidableEq, Repr

namespace ValueForm

/-- A pattern for any non-empty text that does not begin with a match of `inner`. -/
def lookahead (inner : Text) : Text := "(?!".toList ++ inner ++ ").+".toList

/-- The value made from some arguments. -/
def value : ValueForm → Arguments → Text
  | constant text, _ => text
  | first, a => a.slot 0
  | notFirst, a => lookahead (a.slot 0)
  | bracketed, a => '[' :: a.joined [','] ++ [']']
  | anyOf, a => a.joined ['|']
  | noneOf, a => lookahead (a.joined ['|'])

end ValueForm

/-- A row of the table of recognized rules. -/
structure RecognizedRule where
  /-- The rule's name. -/
  name : Text
  /-- The suffixes of the attributes that it produces, each with the form of its value. -/
  columns : List (Text × ValueForm)

namespace RecognizedRule

/-- A pattern for one or more letters. -/
def alphaPattern : Text := "^[A-z]+$".toList

/-- A pattern for one or more letters, dashes and underscores. -/
def alphaDashPattern : Text := "^[A-z-_]+$".toList

/-- A pattern for a dotted quadruple of bytes. -/
def ipPattern : Text :=
  ("\\b(?:(?:2(?:[0-4][0-9]|5[0-5])|[0-1]?[0-9]?[0-9])\\.)\x7b3\x7d" ++
    "(?:(?:2([0-4][0-9]|5[0-5])|[0-1]?[0-9]?[0-9]))\\b").toList

/-- A row that produces one attribute. -/
def one (name suffix : String) (form : ValueForm) : RecognizedRule :=
  ⟨name.toList, [(suffix.toList, form)]⟩

/-- A row that produces one attribute with a fixed value. -/
def fixed (name suffix value : String) : RecognizedRule := one name suffix (.constant value.toList)

/-- A row that asks for digits and limits them by a second attribute. -/
def digitsAnd (name suffix : String) (form : ValueForm) : RecognizedRule :=
  ⟨name.toList, [("type".toList, .constant "digits".toList), (suffix.toList, form)]⟩

/-- The table of recognized rules, ordered by name. -/
def table : List RecognizedRule := [
  fixed "accepted" "pattern" "yes|on|1|true",
  one "alpha" "pattern" (.constant alphaPattern),
  one "alpha_dash" "pattern" (.constant alphaDashPattern),
  fixed "alpha_num" "type" "alphanum",
  one "between" "length" .bracketed,
  fixed "boolean" "pattern" "true|false|1|0",
  one "date_format" "pattern" .first,
  one "different" "pattern" .notFirst,
  digitsAnd "digits" "maxlength" .first,
  digitsAnd "digits_between" "length" .bracketed,
  fixed "email" "type" "email",
  one "in" "pattern" .anyOf,
  fixed "integer" "type" "integer",
  one "ip" "pattern" (.constant ipPattern),
  one "max" "maxlength" .first,
  one "min" "minlength" .first,
  one "not_id" "pattern" .noneOf,
  fixed "numeric" "type" "integer",
  one "regex" "pattern" .first,
  fixed "required" "required" "true",
  one "size" "length" .bracketed,
  fixed "string" "pattern" ".+",
  fixed "url" "type" "url"]

/-- The row of a name, if the name is recognized. -/
def find? (name : Text) : Option RecognizedRule := table.find? fun row => row.name = name

/-- The names of all recognized rules, in order. -/
def names : List Text := table.map (·.name)

end RecognizedRule

namespace Rule

/-- Whether a rule has a row in the table. -/
def isRecognized (r : Rule) : Bool := (RecognizedRule.find? r.name).isSome

/-- The suffixes that a rule of this name produces, each with the form of its value; none for an
unrecognized name. -/
def columnsOf (name : Text) : Option (List (Text × ValueForm)) :=
  (RecognizedRule.find? name).map (·.columns)

/-- The value that an unrecognized rule passes on: its arguments with spaces between them, or its
name if it has no list of arguments. -/
def passedValue (r : Rule) : Text :=
  if r.arguments.isGiven then r.arguments.joined [' '] else r.name

/-- The attributes that a rule produces, in order. -/
def attributes (r : Rule) : List Attribute :=
  match columnsOf r.name with
  | some columns => columns.map fun c => ⟨c.1, c.2.value r.arguments⟩
  | none => [⟨r.name, r.passedValue⟩]

/-- The suffixes that a rule of this name produces. -/
def suffixes (name : Text) : List Text :=
  match columnsOf name with
  | some columns => columns.map Prod.fst
  | none => [name]

/-- Whether a rule produces more than one attribute. -/
def isMultiple (r : Rule) : Bool := 1 < r.attributes.length

/-- The suffixes of the produced attributes hang on the rule's name alone. -/
theorem map_suffix_attributes (r : Rule) : r.attributes.map (·.suffix) = suffixes r.name := by
  unfold attributes suffixes
  cases columnsOf r.name <;> simp [Function.comp_def]

end Rule

end FormRules
