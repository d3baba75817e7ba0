import FormRules.File.View
import FormRules.OrderedMap

/-!
# A tree of files

A tree holds files and directories under their places, a place being the list of names that leads to
it from the directory in which the program works. A path is walked name by name: an empty name and a
dot stay, two dots go up, any other name goes down. Only a directory can be walked from, so a slash
behind the name of a file, readable or not, leads to nothing.

Of what lies outside the working directory a tree knows that the directories above it exist, and that
is all.
-/

namespace FormRules

/-- Files and directories under their places in the working directory. -/
structure FileTree where
  /-- What stands at each place. -/
  entries : List (List Text × FileEntry)

namespace FileTree

open OrderedMap (insertEntry)

/-- The tree of an empty working directory. -/
def empty : FileTree := ⟨[]⟩

/-- Where a walk has come to. -/
inductive Position where
  /-- At a directory outside the working directory. -/
  | outside
  /-- At a place in the working directory where a directory stands. -/
  | within (place : List Text)
  /-- At a file with its bytes. -/
  | atFile (bytes : ByteArray)
  /-- At a file that cannot be read, for a cause. -/
  | atUnreadable (fault : AccessFault)

/-- The longest path, in bytes. -/
def pathBound : Nat := 4095

/-- The longest name, in bytes. -/
def nameBound : Nat := 255

/-- What stands at a place. -/
def entryAt (tree : FileTree) (place : List Text) : Option FileEntry := tree.entries.lookup place

/-- One step of a walk. -/
def step (tree : FileTree) (position : Position) (name : Text) : Except AccessFault Position :=
  match position with
  | .atFile _ | .atUnreadable _ => .error .notDirectory
  | .outside =>
    if name = [] ∨ name = ['.'] ∨ name = ['.', '.'] then .ok .outside
    else if nameBound < Text.byteLength name then .error .nameTooLong
    else .error .notFound
  | .within place =>
    if name = [] ∨ name = ['.'] then .ok position
    else if name = ['.', '.'] then .ok (if place.isEmpty then .outside else .within place.dropLast)
    else if nameBound < Text.byteLength name then .error .nameTooLong
    else match tree.entryAt (place ++ [name]) with
      | none => .error .notFound
      | some .directory => .ok (.within (place ++ [name]))
      | some (.file bytes) => .ok (.atFile bytes)
      | some (.unreadable fault) => .ok (.atUnreadable fault)

/-- Where a path leads to. -/
def walk (tree : FileTree) (path : Text) : Except AccessFault Position :=
  if '\x00' ∈ path then .error .nullInName
  else if path = [] then .error .notFound
  else if pathBound < Text.byteLength path then .error .nameTooLong
  else
    let start : Position := if path.head? = some '/' then .outside else .within []
    (path.splitOn '/').foldlM tree.step start

/-- The view of a tree. -/
def view (tree : FileTree) : FileView := fun path =>
  (tree.walk path).map fun
    | .atFile bytes => .file bytes
    | .atUnreadable fault => .unreadable fault
    | .outside => .directory
    | .within _ => .directory

/-- The names that a path is made of. -/
def placeOf (path : Text) : List Text :=
  (path.splitOn '/').filter fun name => name ≠ [] ∧ name ≠ ['.']

/-- The tree with directories at all the places that lead to one. -/
def addDirectories (tree : FileTree) (place : List Text) : FileTree :=
  (List.range place.length).foldl
    (fun t n => ⟨insertEntry (place.take (n + 1)) .directory t.entries⟩) tree

/-- The tree with a directory under a path. -/
def addDirectory (tree : FileTree) (path : Text) : FileTree := tree.addDirectories (placeOf path)

/-- The tree with a file under a path, and the directories that lead to it. -/
def addFile (tree : FileTree) (path : Text) (bytes : ByteArray) : FileTree :=
  let place := placeOf path
  ⟨insertEntry place (.file bytes) (tree.addDirectories place.dropLast).entries⟩

end FileTree

end FormRules
