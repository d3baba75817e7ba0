import FormRules.Text.Decimal
import FormRules.Text.Quoted

/-!
# Values of the wrong kind

A document may be well formed and still hold a value of another kind than the one wanted. A mismatch
names both: what was found, with the value itself where it is short, and what was wanted. Documents
in JSON and in TOML share this notion and its wording, `invalid type: …, expected …`.
-/

namespace FormRules

/-- The kind of a value that was found, with the value where the message shows it. -/
inductive Found where
  /-- The null value. -/
  | null
  /-- A truth value. -/
  | boolean (b : Bool)
  /-- An integer. -/
  | integer (n : Int)
  /-- A number with a fraction or an exponent, as its format writes it. -/
  | floating (written : Text)
  /-- A string. -/
  | string (text : Text)
  /-- A list of values. -/
  | sequence
  /-- A collection of named values. -/
  | map
  deriving DecidableEq, Repr

/-- What was wanted in place of a value that was found. -/
inductive Wanted where
  /-- A collection of named values. -/
  | map
  /-- A string. -/
  | string
  /-- A truth value. -/
  | boolean
  /-- The settings for reading rule texts. -/
  | readingSection
  /-- The settings for printing. -/
  | outputSection
  deriving DecidableEq, Repr

/-- A value of one kind where another kind is wanted. -/
structure Mismatch where
  /-- What was found. -/
  found : Found
  /-- What was wanted. -/
  wanted : Wanted
  deriving DecidableEq, Repr

/-- A text between grave accents. -/
def Text.accented (t : Text) : Text := '\x60' :: t ++ ['\x60']

/-- A value that was found, as a message shows it. -/
def Found.message : Found → Text
  | null => "null".toList
  | boolean b => "boolean ".toList ++ Text.accented (if b then "true".toList else "false".toList)
  | integer n => "integer ".toList ++ Text.accented (Text.signedDecimal n)
  | floating written => "floating point ".toList ++ Text.accented written
  | string t => "string ".toList ++ Text.quote t
  | sequence => "sequence".toList
  | map => "map".toList

/-- What was wanted, as a message names it. -/
def Wanted.message : Wanted → Text
  | map => "a map".toList
  | string => "a string".toList
  | boolean => "a boolean".toList
  | readingSection => "struct TranslatorConfig".toList
  | outputSection => "struct OutputConfig".toList

/-- The message of a mismatch. -/
def Mismatch.message (m : Mismatch) : Text :=
  "invalid type: ".toList ++ m.found.message ++ ", expected ".toList ++ m.wanted.message

end FormRules
