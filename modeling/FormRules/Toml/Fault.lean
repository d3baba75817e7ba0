import FormRules.Toml.Node

/-!
# Faults of TOML documents

A document is read whole before its values are looked at, so a malformed one is refused whatever its
values are. After that the first value in document order that is not as wanted is the one that counts.
Besides a mismatch of kinds there are the ways in which a value can fail to name one choice out of
several: a choice is named by a string, or by a table whose only key is the name and whose only value
is empty.
-/

namespace FormRules.Toml

/-- Why a document is refused. -/
inductive Fault where
  /-- The text is no TOML document. -/
  | malformed
  /-- A value is of the wrong kind. -/
  | mismatch (m : Mismatch)
  /-- A name is none of two choices. -/
  | unknownChoice (given first second : Text)
  /-- A choice is named by neither a string nor a table. -/
  | choiceByNeither
  /-- The table that is to name a choice is empty. -/
  | choiceMissing
  /-- The table that is to name a choice has more than one key. -/
  | choiceRepeated
  /-- A choice is named with a table or an array behind it that is not empty. -/
  | choiceWithContent
  /-- A choice is named with a list of tables behind it that is not empty. -/
  | choiceWithTables
  /-- A choice is named with a value of this kind behind it. -/
  | choiceWithValue (kind : Text)
  deriving DecidableEq, Repr

/-- The message of a fault; a malformed document has none. -/
def Fault.message? : Fault → Option Text
  | malformed => none
  | mismatch m => some m.message
  | unknownChoice given first second =>
    some ("unknown variant ".toList ++ Text.accented given ++ ", expected ".toList ++
      Text.accented first ++ " or ".toList ++ Text.accented second)
  | choiceByNeither => some "wanted string or table".toList
  | choiceMissing => some "wanted exactly 1 element, found 0 elements".toList
  | choiceRepeated => some "wanted exactly 1 element, more than 1 element".toList
  | choiceWithContent => some "expected empty table".toList
  | choiceWithTables => some "expected empty array".toList
  | choiceWithValue kind => some ("expected table, found ".toList ++ kind)

end FormRules.Toml
