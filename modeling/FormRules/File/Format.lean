import FormRules.Text.Basic

/-!
# The format of a file by its name

A path ends in a file name once the slashes and the `/.` at its end are dropped, unless `..` is left
or nothing at all. The extension is what stands behind the last dot of the file name, if something
stands before that dot. The extensions `toml` and `json`, in these letters, name the formats that this
library reads.
-/

namespace FormRules

/-- The formats of files. -/
inductive FileFormat where
  /-- A TOML document. -/
  | toml
  /-- A JSON document. -/
  | json
  deriving DecidableEq, Repr

/-- The name of a format, which is also its extension. -/
def FileFormat.name : FileFormat → Text
  | toml => "toml".toList
  | json => "json".toList

namespace Path

/-- Whether a component of a path leaves it where it is. -/
def isIdle (component : Text) : Bool := component = [] || component = ['.']

/-- The last component of a path, idle ones at its end dropped. -/
def lastComponent? (path : Text) : Option Text := (path.splitOn '/').reverse.find? fun c => !isIdle c

/-- The extension of a file name: what stands behind its last dot, if something stands before it. Two
dots are no file name. -/
def extensionOf (name : Text) : Option Text :=
  if name = ['.', '.'] then none
  else match Text.cut '.' name.reverse with
    | (after, some (_ :: _)) => some after.reverse
    | _ => none

/-- The extension of the file name that a path ends in. -/
def extension? (path : Text) : Option Text := (lastComponent? path).bind extensionOf

end Path

/-- The format of the file that a path leads to, by the extension of its name. -/
def FileFormat.ofPath? (path : Text) : Option FileFormat :=
  match Path.extension? path with
  | some e =>
    if e = FileFormat.toml.name then some .toml
    else if e = FileFormat.json.name then some .json
    else none
  | none => none

end FormRules
