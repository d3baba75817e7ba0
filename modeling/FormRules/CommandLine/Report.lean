import FormRules.Attributes.Json
import FormRules.CommandLine.Arguments
import FormRules.Form.Load
import FormRules.Settings.Load

/-!
# What the program prints

A run of the program is a function of its arguments, of the files and of whether it may print in
colour. Its report is an exit code, the text for the standard output and, for a failure, a line with
the failure's outermost message. A failure and a misuse print nothing on the standard output, and
settings are loaded before anything else, so their failure is the one that is reported.

The attributes of a form are printed in the compact form if that is asked for or the settings do not
ask for the pretty one. The attributes of a field are printed one to a line, without any escaping.

The wording of the help, and of what is said about a misuse, is left out: a report says that the help
is printed, and not how it reads.
-/

namespace FormRules.CommandLine

/-! ### Colour -/

/-- The sequence that turns some style on. -/
def styleOn (style : Text) : Text := '\x1b' :: '[' :: style ++ ['m']

/-- The sequence that turns all styles off. -/
def styleOff : Text := ['\x1b', '[', '0', 'm']

/-- A text in which every sequence that turns styles off is followed by one that turns some style on
again. -/
def keepStyle (style : Text) : Text → Text
  | '\x1b' :: '[' :: '0' :: 'm' :: t => styleOff ++ styleOn style ++ keepStyle style t
  | c :: t => c :: keepStyle style t
  | [] => []

/-- A text in some style, if the program may print in colour. -/
def styled (colour : Bool) (style : String) (t : Text) : Text :=
  if colour then styleOn style.toList ++ keepStyle style.toList t ++ styleOff else t

/-! ### Printed texts -/

/-- A line with its end. -/
def line (t : Text) : Text := t ++ ['\n']

/-- The attributes of a field, one to a line. -/
def fieldText (colour : Bool) (m : Attributes) : Text :=
  if m.isEmpty then line (styled colour "33" "No attributes produced".toList)
  else m.entries.flatMap fun e => line (styled colour "36" e.1 ++ '=' :: '"' :: e.2 ++ ['"'])

/-- The attributes of a form as one JSON text. -/
def formText (compact : Bool) (m : FormAttributes) : Text :=
  line (if compact then (FormAttributes.toJson m).compact else (FormAttributes.toJson m).pretty 0)

/-- The list of recognized rules. -/
def rulesText (colour : Bool) : Text :=
  line (styled colour "1;32" "Recognized rules:".toList) ++
    RecognizedRule.names.flatMap (fun name => line (' ' :: ' ' :: name)) ++ line [] ++
    line (styled colour "2" "Any other rule is passed through as data-parsley-<name>".toList)

/-- The version of the program. -/
def versionText : Text := line "rusty-parsley 0.1.0".toList

/-! ### Runs -/

/-- What a run of the program leaves. -/
structure Report where
  /-- The exit code. -/
  code : Nat
  /-- The text for the standard output, without the help. -/
  output : Text
  /-- The line that tells of a failure. -/
  errorLine : Option Text
  /-- Whether the help is printed. -/
  printsHelp : Bool
  deriving DecidableEq, Repr

/-- The report of a run that ends well. -/
def Report.success (output : Text) : Report := ⟨0, output, none, false⟩

/-- The report of a failure. -/
def Report.failure (f : Failure) : Report :=
  ⟨1, [], some ("Error: ".toList ++ f.headline), false⟩

/-- The report of a request for the help. -/
def Report.help : Report := ⟨0, [], none, true⟩

/-- The report of a misuse. -/
def Report.misuse : Report := ⟨2, [], none, false⟩

/-- What a command prints, or why it fails. -/
def Command.output (files : FileView) (colour : Bool) : Command → Except Failure Text
  | .printForm file settings compact => do
    let s ← Settings.load files (settings.getD Settings.usualPath)
    let form ← Form.load files file
    return formText (compact || !s.pretty) (form.attributes s.reading)
  | .printField rules settings => do
    let s ← Settings.load files (settings.getD Settings.usualPath)
    return fieldText colour (s.reading.attributes rules)
  | .listRules => return rulesText colour

/-- The report of a command. -/
def Command.report (files : FileView) (colour : Bool) (c : Command) : Report :=
  match c.output files colour with
  | .ok output => .success output
  | .error f => .failure f

/-- The report of what the arguments ask for. -/
def Request.report (files : FileView) (colour : Bool) : Request → Report
  | .run command => command.report files colour
  | .version => .success versionText
  | .help => .help
  | .misuse => .misuse

/-- The report of a run of the program. -/
def run (files : FileView) (colour : Bool) (arguments : List Text) : Report :=
  (Request.of arguments).report files colour

/-- The paths that a request looks at. -/
def Request.paths : Request → List Text
  | .run (.printForm file settings _) => [settings.getD Settings.usualPath, file]
  | .run (.printField _ settings) => [settings.getD Settings.usualPath]
  | _ => []

end FormRules.CommandLine
