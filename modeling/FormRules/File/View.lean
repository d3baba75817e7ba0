import FormRules.Text.Basic

/-!
# What paths lead to

The program sees files through a view: a path leads to a file with its bytes, to a directory, to
something that is there but cannot be read, for a cause, or to nothing, for a cause. Reading a text asks
for a file whose bytes are UTF-8. All that depends on files is a function of a view, so a view of a tree
in memory and one of a disk serve alike.

What cannot be read and what is not there are kept apart. A text is fetched from neither, but a path
that leads to the former leads somewhere.
-/

namespace FormRules

/-- Why a path leads to nothing, or to no text. -/
inductive AccessFault where
  /-- There is nothing of that name. -/
  | notFound
  /-- A file stands where a directory is wanted. -/
  | notDirectory
  /-- A directory stands where a file is wanted. -/
  | isDirectory
  /-- The path, or a name in it, is too long. -/
  | nameTooLong
  /-- The path holds a null character. -/
  | nullInName
  /-- The system does not permit the access. -/
  | notPermitted
  /-- The bytes of the file are no text in UTF-8. -/
  | notUtf8
  /-- Another cause, in the words of the system. -/
  | other (message : Text)
  deriving DecidableEq, Repr

/-- The message of a failed access. -/
def AccessFault.message : AccessFault → Text
  | notFound => "No such file or directory (os error 2)".toList
  | notDirectory => "Not a directory (os error 20)".toList
  | isDirectory => "Is a directory (os error 21)".toList
  | nameTooLong => "File name too long (os error 36)".toList
  | nullInName => "file name contained an unexpected NUL byte".toList
  | notPermitted => "Permission denied (os error 13)".toList
  | notUtf8 => "stream did not contain valid UTF-8".toList
  | other message => message

/-- What a path leads to. -/
inductive FileEntry where
  /-- A file with its bytes. -/
  | file (bytes : ByteArray)
  /-- A directory. -/
  | directory
  /-- Something that is there and cannot be read, for a cause. -/
  | unreadable (fault : AccessFault)

/-- What each path leads to. -/
abbrev FileView := Text → Except AccessFault FileEntry

/-- The text that bytes stand for in UTF-8. -/
def Text.ofBytes (bytes : ByteArray) : Except AccessFault Text :=
  match String.fromUTF8? bytes with
  | some s => .ok s.toList
  | none => .error .notUtf8

namespace FileView

/-- Whether a path leads to anything, readable or not. -/
def leads (files : FileView) (path : Text) : Bool := (files path).isOk

/-- The text of the file that a path leads to. -/
def readText (files : FileView) (path : Text) : Except AccessFault Text :=
  match files path with
  | .error fault => .error fault
  | .ok .directory => .error .isDirectory
  | .ok (.unreadable fault) => .error fault
  | .ok (.file bytes) => Text.ofBytes bytes

end FileView

end FormRules
