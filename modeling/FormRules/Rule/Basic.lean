import FormRules.Rule.Arguments

/-!
# Rules

A field of a form is declared with a rule text such as `required|min:3|max:64`: tokens between
bars, each a rule's name or a name, a colon and a blob of arguments. Two choices are left open by
that notion and make up a `ReadingPolicy`:

* an empty token, as between the bars of `required||min:3`, is a rule with an empty name or is
  skipped (`EmptyTokens`);
* a second colon in a token cuts the blob short, or belongs to it (`ColonReading`).

`Rule.ofToken` reads one token and `Rule.ofText` a whole rule text. `Rule.token` and `Rule.textOf`
write them again; a rule whose arguments are unset is written by its name alone.
-/

namespace FormRules

/-- What an empty token of a rule text stands for. -/
inductive EmptyTokens where
  /-- A rule with an empty name and unset arguments. -/
  | fallback
  /-- Nothing: the token is skipped. -/
  | skip
  deriving DecidableEq, Repr, Inhabited

/-- What a second colon in a token does. -/
inductive ColonReading where
  /-- It ends the blob; the rest of the token is dropped. -/
  | truncate
  /-- It is a character of the blob. -/
  | keep
  deriving DecidableEq, Repr, Inhabited

/-- How a rule text is read. -/
structure ReadingPolicy where
  /-- What an empty token stands for. -/
  emptyTokens : EmptyTokens := .fallback
  /-- What a second colon in a token does. -/
  colons : ColonReading := .truncate
  deriving DecidableEq, Repr, Inhabited

/-- A validation rule: a name with its arguments. -/
structure Rule where
  /-- The name, as written. -/
  name : Text
  /-- The arguments. -/
  arguments : Arguments
  deriving DecidableEq, Repr, Inhabited

/-- The part of the text after a token's first colon that is the blob of arguments. -/
def ColonReading.blob : ColonReading → Text → Text
  | .truncate, t => (Text.cut ':' t).1
  | .keep, t => t

/-- Whether a token stands for a rule: every token does, or every token that is not empty. -/
def EmptyTokens.admits : EmptyTokens → Text → Bool
  | .fallback, _ => true
  | .skip, token => !token.isEmpty

/-- The tokens of a rule text: its pieces between bars, empty ones kept. -/
def tokens (rules : Text) : List Text := rules.splitOn '|'

namespace Rule

/-- The rule that a token stands for. -/
def ofToken (colons : ColonReading) (token : Text) : Rule :=
  match Text.cut ':' token with
  | (name, none) => ⟨name, .unset⟩
  | (name, some rest) => ⟨name, .ofBlob (colons.blob rest)⟩

/-- The rules of a rule text, in order. -/
def ofText (policy : ReadingPolicy) (rules : Text) : List Rule :=
  ((tokens rules).filter policy.emptyTokens.admits).map (ofToken policy.colons)

/-- A rule written as a token: its name alone if its arguments are unset, else its name, a colon
and its arguments with commas between them. -/
def token (r : Rule) : Text :=
  if r.arguments = .unset then r.name else r.name ++ ':' :: r.arguments.joined [',']

/-- A list of rules written as a rule text, with bars between the tokens. -/
def textOf (rules : List Rule) : Text := Text.join ['|'] (rules.map token)

/-- The name of the rule that a token stands for is the text before the token's first colon. -/
theorem name_ofToken (colons : ColonReading) (t : Text) :
    (ofToken colons t).name = (Text.cut ':' t).1 := by
  unfold ofToken
  split <;> simp_all

end Rule

end FormRules
