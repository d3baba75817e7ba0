import FormRules.Settings.Basic
import FormRules.Toml.Document
import FormRules.Toml.Fault

/-!
# Settings in TOML

A settings file is a TOML document with two sections. Names that are no setting are passed over,
whatever they stand for, and a setting that is not given has its default. The values of a section may
also be given as an array, in the order of the settings; then missing ones have their defaults and
surplus ones are passed over.

Sections and settings are looked at in document order, and the first fault counts.
-/

namespace FormRules.Settings

open Toml (Node Entries Fault)

/-! ### Single values -/

/-- Accepts what stands behind a choice that a table names: it must be empty. -/
def checkEmpty : Node → Except Fault Unit
  | .array items => if items.isEmpty then .ok () else .error .choiceWithContent
  | .table _ es => if es.isEmpty then .ok () else .error .choiceWithContent
  | .tables elements => if elements.isEmpty then .ok () else .error .choiceWithTables
  | .string _ => .error (.choiceWithValue "string".toList)
  | .integer _ => .error (.choiceWithValue "integer".toList)
  | .real _ => .error (.choiceWithValue "float".toList)
  | .boolean _ => .error (.choiceWithValue "boolean".toList)
  | .moment => .error (.choiceWithValue "datetime".toList)

/-- The choice of a given name out of two. -/
def choose {α : Type} (name : α → Text) (first second : α) (given : Text) : Except Fault α :=
  if given = name first then .ok first
  else if given = name second then .ok second
  else .error (.unknownChoice given (name first) (name second))

/-- The choice that a value names, by a string or by a table with one key. -/
def readChoice {α : Type} (name : α → Text) (first second : α) : Node → Except Fault α
  | .string given => choose name first second given
  | .table _ [] => .error .choiceMissing
  | .table _ [(given, v)] => do
    let choice ← choose name first second given
    checkEmpty v
    return choice
  | .table _ (_ :: _ :: _) => .error .choiceRepeated
  | _ => .error .choiceByNeither

/-- A truth value. -/
def readBoolean : Node → Except Fault Bool
  | .boolean b => .ok b
  | v => .error (.mismatch ⟨v.found, .boolean⟩)

/-! ### Sections -/

/-- The named values of a section: those of a table, or those of an array under the names of the
settings in order; none if the value is no section. A moment holds no setting. -/
def sectionOf (names : List Text) : Node → Option Entries
  | .table _ es => some es
  | .moment => some []
  | .array items => some (names.zip items)
  | .tables elements => some (names.zip (elements.map (.table .explicit)))
  | _ => none

/-- Takes the named values of a section one after the other. -/
def readSection {α : Type} (wanted : Wanted) (names : List Text)
    (set : Text → Node → α → Except Fault α) (initial : α) (v : Node) : Except Fault α :=
  match sectionOf names v with
  | some es => es.foldlM (fun s e => set e.1 e.2 s) initial
  | none => .error (.mismatch ⟨v.found, wanted⟩)

/-- Takes a value into the settings for reading rule texts, if it has the name of one. -/
def setReading (name : Text) (v : Node) (p : ReadingPolicy) : Except Fault ReadingPolicy :=
  if name = emptyTokensKey then
    (readChoice EmptyTokens.name .fallback .skip v).map fun e => { p with emptyTokens := e }
  else if name = colonsKey then
    (readChoice ColonReading.name .truncate .keep v).map fun c => { p with colons := c }
  else .ok p

/-- Takes a value into the settings for printing, if it has the name of one. -/
def setOutput (name : Text) (v : Node) (pretty : Bool) : Except Fault Bool :=
  if name = prettyKey then readBoolean v else .ok pretty

/-- Takes a section into the settings, if it has the name of one. -/
def setSection (name : Text) (v : Node) (s : Settings) : Except Fault Settings :=
  if name = readingKey then
    (readSection .readingSection [emptyTokensKey, colonsKey] setReading {} v).map fun p =>
      { s with reading := p }
  else if name = outputKey then
    (readSection .outputSection [prettyKey] setOutput true v).map fun b => { s with pretty := b }
  else .ok s

/-- The settings that the entries of a document's outermost table give. -/
def ofEntries (es : Entries) : Except Fault Settings :=
  es.foldlM (fun s e => setSection e.1 e.2 s) {}

/-- Reads settings. -/
def ofToml (t : Text) : Except Fault Settings :=
  match Toml.readDocument t with
  | none => .error .malformed
  | some es => ofEntries es

end FormRules.Settings
