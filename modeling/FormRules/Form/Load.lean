import FormRules.Failure
import FormRules.Json.Form
import FormRules.Toml.Form

/-!
# Loading forms

A form is read from a text of a given format, or from a file whose name tells the format. Loading a
file looks at its name first, then fetches its text, then reads it; the first of these that fails is
the failure, and of the files only the one that the path leads to is looked at.
-/

namespace FormRules.Form

/-- Reads a form from a text. -/
def read (format : FileFormat) (t : Text) : Except Failure Form :=
  let result : Except Cause Form :=
    match format with
    | .toml => (Toml.readForm t).mapError Cause.toml
    | .json => (Json.readForm t).mapError Cause.json
  result.mapError fun cause => ⟨[.readingForm format], cause⟩

/-- Loads a form from the file that a path leads to. -/
def load (files : FileView) (path : Text) : Except Failure Form :=
  match FileFormat.ofPath? path with
  | none => .error ⟨[], .unknownFormat path⟩
  | some format =>
    match files.readText path with
    | .error fault => .error ⟨[.fetchingForm path], .access fault⟩
    | .ok t => (read format t).mapError (.within (.loadingForm format path))

end FormRules.Form
