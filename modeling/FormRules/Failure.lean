import FormRules.File.Format
import FormRules.File.View
import FormRules.Json.Fault
import FormRules.Toml.Fault

/-!
# Failures

What goes wrong when a file is read has a cause, and each stage that the cause passes through on its
way puts a context around it. A failure is the cause with its contexts, the outermost first. Its
message is made of the contexts alone; a cause that is a sentence of its own, such as a file of no
known format, is the message where there are no contexts. The detail is the cause's own text, which a
malformed document does not have.
-/

namespace FormRules

/-- What went wrong. -/
inductive Cause where
  /-- A JSON document is refused. -/
  | json (fault : Json.Fault)
  /-- A TOML document is refused. -/
  | toml (fault : Toml.Fault)
  /-- A path leads to no text. -/
  | access (fault : AccessFault)
  /-- The path of a rule file names no known format. -/
  | unknownFormat (path : Text)
  deriving DecidableEq, Repr

/-- What was being done when something went wrong. -/
inductive Context where
  /-- A form was read from a text of some format. -/
  | readingForm (format : FileFormat)
  /-- The text of a rule file was fetched. -/
  | fetchingForm (path : Text)
  /-- The text of a rule file was read. -/
  | loadingForm (format : FileFormat) (path : Text)
  /-- The text of a settings file was fetched. -/
  | fetchingSettings (path : Text)
  /-- The text of a settings file was read. -/
  | readingSettings (path : Text)
  deriving DecidableEq, Repr

/-- A cause with the contexts around it. -/
structure Failure where
  /-- What was being done, the outermost first. -/
  contexts : List Context
  /-- What went wrong. -/
  cause : Cause
  deriving DecidableEq, Repr

/-- The name of a format as the parsing context spells it. -/
def FileFormat.title : FileFormat → Text
  | toml => "TOML".toList
  | json => "JSON".toList

/-- The message of a context. -/
def Context.message : Context → Text
  | readingForm format => "Failed to parse ".toList ++ format.title ++ " rule set".toList
  | fetchingForm path => "Failed to read rule file: ".toList ++ Text.quote path
  | loadingForm format path =>
    "Invalid ".toList ++ format.name ++ " rule file: ".toList ++ Text.quote path
  | fetchingSettings path => "Failed to read config file: ".toList ++ Text.quote path
  | readingSettings path => "Failed to parse config file: ".toList ++ Text.quote path

/-- The text of a cause; a malformed document has none. -/
def Cause.detail? : Cause → Option Text
  | json (.mismatch m) => some m.message
  | json .malformed | json .unfinished => none
  | toml fault => fault.message?
  | access fault => some fault.message
  | unknownFormat path =>
    some ("Unsupported rule file ".toList ++ Text.quote path ++
      ": expected a .toml or .json extension".toList)

namespace Failure

/-- The messages of a failure, the outermost first: those of its contexts, or the text of its cause if
it has no contexts. -/
def messages (f : Failure) : List Text :=
  if f.contexts.isEmpty then f.cause.detail?.toList else f.contexts.map Context.message

/-- The message of a failure. -/
def message (f : Failure) : Text := Text.join ": ".toList f.messages

/-- The outermost message of a failure. -/
def headline (f : Failure) : Text := f.messages.headD []

/-- A failure with one more context around it. -/
def within (context : Context) (f : Failure) : Failure := { f with contexts := context :: f.contexts }

end Failure

end FormRules
