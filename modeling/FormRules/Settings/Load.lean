import FormRules.Failure
import FormRules.Settings.Toml
import FormRules.Text.Blank

/-!
# Loading settings

Settings are loaded from a file. A path that leads to nothing, and a file that holds nothing but
blanks, give the default settings. A path that leads to something of which no text can be fetched is a
failure.
-/

namespace FormRules.Settings

/-- The path of the settings file where no other is named. -/
def usualPath : Text := "rusty-parsley.toml".toList

/-- Reads settings from the text of a file; blanks alone give the defaults. -/
def read (t : Text) : Except Toml.Fault Settings := if Text.isBlank t then .ok {} else ofToml t

/-- Loads settings from the file that a path leads to. -/
def load (files : FileView) (path : Text) : Except Failure Settings :=
  if files.leads path then
    match files.readText path with
    | .error fault => .error ⟨[.fetchingSettings path], .access fault⟩
    | .ok t => (read t).mapError fun fault => ⟨[.readingSettings path], .toml fault⟩
  else .ok {}

end FormRules.Settings
