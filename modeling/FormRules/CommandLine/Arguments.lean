import FormRules.Text.Basic

/-!
# Command line arguments

The program has three commands: one prints the attributes of a rule file, one those of a single rule
text, and one lists the recognized rules. Arguments are looked at from left to right.

* A word that begins with a dash, other than a single dash, is an option. A long option may have its
  value behind an equals sign, a short one directly behind its letter; letters may stand together
  behind one dash. Otherwise the value is the next word, which must not be an option.
* Any other word is the name of a command, or the one operand of the command. Behind a double dash
  every word is an operand.
* No option and no operand is given twice. The option to say more may come once before the command
  and once behind it.
* A request for help or for the version number is granted as soon as it is met.

Whatever does not fit is a misuse. The path of a file must not be empty.
-/

namespace FormRules.CommandLine

/-- What the program can be asked to do. -/
inductive Command where
  /-- Print the attributes of a rule file, with settings from a file, on a single line or not. -/
  | printForm (file : Text) (settings : Option Text) (compact : Bool)
  /-- Print the attributes of a rule text, with settings from a file. -/
  | printField (rules : Text) (settings : Option Text)
  /-- List the recognized rules. -/
  | listRules
  deriving DecidableEq, Repr

/-- What the arguments ask for. -/
inductive Request where
  /-- To carry out a command. -/
  | run (command : Command)
  /-- To print the version number. -/
  | version
  /-- To print the help. -/
  | help
  /-- Nothing that the program understands. -/
  | misuse
  deriving DecidableEq, Repr

/-- The names of the commands. -/
inductive Verb where
  /-- Of the command for rule files. -/
  | form
  /-- Of the command for rule texts. -/
  | field
  /-- Of the command that lists rules. -/
  | list
  deriving DecidableEq, Repr

/-- The command that a word names. -/
def Verb.ofName? (word : Text) : Option Verb :=
  if word = "translate".toList then some .form
  else if word = "field".toList then some .field
  else if word = "rules".toList then some .list
  else none

/-- Whether a command takes its settings from a file that an option names. -/
def Verb.takesSettings : Verb → Bool
  | form | field => true
  | list => false

/-- Whether a command takes the option for a single line. -/
def Verb.takesCompact : Verb → Bool
  | form => true
  | field | list => false

/-- Whether a word may be the operand of a command. -/
def Verb.admits : Verb → Text → Bool
  | form, word => !word.isEmpty
  | field, _ => true
  | list, _ => false

/-- What is gathered from the arguments of a command. -/
structure Gathered where
  /-- Whether the option to say more was given. -/
  verbose : Bool := false
  /-- Whether the option for a single line was given. -/
  compact : Bool := false
  /-- The settings file that was named. -/
  settings : Option Text := none
  /-- The operand. -/
  operand : Option Text := none

namespace Gathered

/-- Adds the option to say more, if it is new. -/
def addVerbose (g : Gathered) : Option Gathered :=
  if g.verbose then none else some { g with verbose := true }

/-- Adds the option for a single line, if the command takes it and it is new. -/
def addCompact (verb : Verb) (g : Gathered) : Option Gathered :=
  if g.compact || !verb.takesCompact then none else some { g with compact := true }

/-- Adds a settings file, if its path is not empty and it is the first. -/
def addSettings (path : Text) (g : Gathered) : Option Gathered :=
  if g.settings.isSome || path.isEmpty then none else some { g with settings := some path }

/-- Adds an operand, if the command takes it and it is the first. -/
def addOperand (verb : Verb) (word : Text) (g : Gathered) : Option Gathered :=
  if g.operand.isSome || !verb.admits word then none else some { g with operand := some word }

/-- What a command is asked to do, if nothing that it needs is missing. -/
def request (g : Gathered) : Verb → Request
  | .form =>
    match g.operand with
    | some file => .run (.printForm file g.settings g.compact)
    | none => .misuse
  | .field =>
    match g.operand with
    | some rules => .run (.printField rules g.settings)
    | none => .misuse
  | .list => .run .listRules

end Gathered

/-- What a word is. -/
inductive Word where
  /-- A double dash. -/
  | separator
  /-- A long option by its name, with a value behind an equals sign or without. -/
  | long (name : Text) (value : Option Text)
  /-- Letters of short options. -/
  | short (letters : Text)
  /-- A word that is no option. -/
  | plain

/-- What a word is. -/
def Word.of : Text → Word
  | ['-', '-'] => separator
  | '-' :: '-' :: t => long (Text.cut '=' t).1 (Text.cut '=' t).2
  | '-' :: c :: t => short (c :: t)
  | _ => plain

/-- Whether a word may be the value of the option before it. -/
def isValue (word : Text) : Bool :=
  match Word.of word with
  | .plain => true
  | _ => false

/-! ### Behind the name of a command -/

/-- What comes of a group of short options. -/
inductive GroupResult where
  /-- The options are taken. -/
  | taken (g : Gathered)
  /-- The options are taken but for the last, whose value is the next word. -/
  | valueNext (g : Gathered)
  /-- The help is asked for. -/
  | help
  /-- The options do not fit. -/
  | misuse

/-- Takes a group of short options. -/
def takeGroup (verb : Verb) (g : Gathered) : Text → GroupResult
  | [] => .taken g
  | 'v' :: t =>
    match g.addVerbose with
    | some g => takeGroup verb g t
    | none => .misuse
  | 'h' :: _ => .help
  | 'c' :: t =>
    if !verb.takesSettings then .misuse
    else match t with
      | [] => .valueNext g
      | '=' :: path => (g.addSettings path).elim .misuse .taken
      | path => (g.addSettings path).elim .misuse .taken
  | _ => .misuse

/-- Looks at words that can only be operands. -/
def takeOperands (verb : Verb) (g : Gathered) (words : List Text) : Request :=
  (words.foldlM (fun g word => Gathered.addOperand verb word g) g).elim .misuse (·.request verb)

/-- Looks at the words behind the name of a command. -/
def takeWords (verb : Verb) (g : Gathered) : List Text → Request
  | [] => g.request verb
  | word :: words =>
    let continueWith (g? : Option Gathered) : Request :=
      match g? with
      | some g => takeWords verb g words
      | none => .misuse
    let continueWithValue (g : Gathered) : Request :=
      match words with
      | value :: words =>
        if isValue value then
          match g.addSettings value with
          | some g => takeWords verb g words
          | none => .misuse
        else .misuse
      | [] => .misuse
    match Word.of word with
    | .separator => takeOperands verb g words
    | .plain => continueWith (g.addOperand verb word)
    | .short letters =>
      match takeGroup verb g letters with
      | .taken g => continueWith (some g)
      | .valueNext g => continueWithValue g
      | .help => .help
      | .misuse => .misuse
    | .long name value =>
      if name = "config".toList && verb.takesSettings then
        match value with
        | some path => continueWith (g.addSettings path)
        | none => continueWithValue g
      else if value.isSome then .misuse
      else if name = "verbose".toList then continueWith g.addVerbose
      else if name = "compact".toList then continueWith (g.addCompact verb)
      else if name = "help".toList then .help
      else .misuse

/-! ### Before the name of a command -/

/-- Takes a group of short options in front of a command: whether the option to say more was given, or
what is asked for instead of a command. -/
def takeLeadingGroup (verbose : Bool) : Text → Except Request Bool
  | [] => .ok verbose
  | 'v' :: t => if verbose then .error .misuse else takeLeadingGroup true t
  | 'V' :: _ => .error .version
  | 'h' :: _ => .error .help
  | _ => .error .misuse

/-- Looks at the words behind the name of the command for help: at most the name of a command. -/
def helpRequest : List Text → Request
  | [] => .help
  | [word] => if word = "help".toList ∨ (Verb.ofName? word).isSome then .help else .misuse
  | _ => .misuse

/-- Looks at all words, the option to say more being given already or not. -/
def takeLeading (verbose : Bool) : List Text → Request
  | [] => .misuse
  | word :: words =>
    match Word.of word with
    | .separator => .misuse
    | .plain =>
      match Verb.ofName? word with
      | some verb => takeWords verb {} words
      | none => if word = "help".toList then helpRequest words else .misuse
    | .short letters =>
      match takeLeadingGroup verbose letters with
      | .ok verbose => takeLeading verbose words
      | .error request => request
    | .long name value =>
      if value.isSome then .misuse
      else if name = "verbose".toList then if verbose then .misuse else takeLeading true words
      else if name = "version".toList then .version
      else if name = "help".toList then .help
      else .misuse

/-- What the arguments ask for. -/
def Request.of (arguments : List Text) : Request := takeLeading false arguments

end FormRules.CommandLine
