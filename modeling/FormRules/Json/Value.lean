import FormRules.Json.Quoted

/-!
# JSON values and their two written forms

The values that this library prints are strings, truth values, arrays and objects whose members
keep their order. A value has a compact form without any blank outside its strings, and a pretty form
with every member on a line of its own, indented by two spaces for each level; in the pretty form an
empty array is `[]` and an empty object is `{}` on one line, as in the compact form.
-/

namespace FormRules.Json

/-- The values that are printed. -/
inductive Value where
  /-- A string. -/
  | string (text : Text)
  /-- A truth value. -/
  | boolean (b : Bool)
  /-- An array. -/
  | array (items : List Value)
  /-- An object: its members in order. -/
  | object (members : List (Text × Value))

/-- A truth value as it is written. -/
def booleanText (b : Bool) : Text := if b then "true".toList else "false".toList

namespace Value

/-! ### The compact form -/

mutual

/-- A value without any blank outside its strings. -/
def compact : Value → Text
  | string t => quoted t
  | boolean b => booleanText b
  | array items => '[' :: Text.join [','] (compactItems items) ++ [']']
  | object members => '{' :: Text.join [','] (compactMembers members) ++ ['}']

/-- The items of an array, each in its compact form. -/
def compactItems : List Value → List Text
  | [] => []
  | v :: vs => v.compact :: compactItems vs

/-- The members of an object, each in its compact form. -/
def compactMembers : List (Text × Value) → List Text
  | [] => []
  | (k, v) :: ms => (quoted k ++ ':' :: v.compact) :: compactMembers ms

end

/-! ### The pretty form -/

/-- The start of a line at some level. -/
def indent (level : Nat) : Text := List.replicate (2 * level) ' '

/-- Lines at the level within, between an opening and a closing bracket. -/
def block (level : Nat) (opening closing : Char) (lines : List Text) : Text :=
  if lines.isEmpty then [opening, closing]
  else opening :: '\n' :: Text.join [',', '\n'] (lines.map (indent (level + 1) ++ ·)) ++
    '\n' :: indent level ++ [closing]

mutual

/-- A value with every member on a line of its own, at some level of indentation. -/
def pretty (level : Nat) : Value → Text
  | string t => quoted t
  | boolean b => booleanText b
  | array items => block level '[' ']' (prettyItems (level + 1) items)
  | object members => block level '{' '}' (prettyMembers (level + 1) members)

/-- The items of an array, each in its pretty form. -/
def prettyItems (level : Nat) : List Value → List Text
  | [] => []
  | v :: vs => v.pretty level :: prettyItems level vs

/-- The members of an object, each in its pretty form. -/
def prettyMembers (level : Nat) : List (Text × Value) → List Text
  | [] => []
  | (k, v) :: ms => (quoted k ++ ':' :: ' ' :: v.pretty level) :: prettyMembers level ms

end

/-- An object of strings. -/
def ofStrings (members : List (Text × Text)) : Value :=
  object (members.map fun m => (m.1, string m.2))

end Value

end FormRules.Json
