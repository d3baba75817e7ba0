import FormRules.Json.Value
import FormRules.Rule.Basic

/-!
# Settings

The settings of the program: how rule texts are read, and whether attributes are printed in the pretty
form. Every setting has a default. This module holds their names, which settings files and printed
settings share.
-/

namespace FormRules

/-- The settings of the program. -/
structure Settings where
  /-- How rule texts are read. -/
  reading : ReadingPolicy := {}
  /-- Whether attributes are printed in the pretty form. -/
  pretty : Bool := true
  deriving DecidableEq, Repr

instance : Inhabited Settings := ⟨{}⟩

/-- The names of the two readings of empty tokens. -/
def EmptyTokens.name : EmptyTokens → Text
  | fallback => "fallback".toList
  | skip => "skip".toList

/-- The names of the two readings of a second colon. -/
def ColonReading.name : ColonReading → Text
  | truncate => "truncate".toList
  | keep => "keep".toList

namespace Settings

/-- The section of the settings for reading rule texts. -/
def readingKey : Text := "translator".toList

/-- The setting for empty tokens. -/
def emptyTokensKey : Text := "empty_tokens".toList

/-- The setting for a second colon. -/
def colonsKey : Text := "argument_colons".toList

/-- The section of the settings for printing. -/
def outputKey : Text := "output".toList

/-- The setting for the pretty form. -/
def prettyKey : Text := "pretty".toList

/-- Settings as an object of two sections. -/
def toJson (s : Settings) : Json.Value :=
  .object [
    (readingKey, .ofStrings [
      (emptyTokensKey, s.reading.emptyTokens.name), (colonsKey, s.reading.colons.name)]),
    (outputKey, .object [(prettyKey, .boolean s.pretty)])]

end Settings

end FormRules
