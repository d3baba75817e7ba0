import FormRules.Toml.Quoted

/-!
# Keys in TOML

A simple key is bare, made of letters, digits, underscores and dashes of ASCII, or a quoted string on
one line. A key is a row of simple keys with dots between them and blanks around each. A key of eighty
parts or more is refused.
-/

namespace FormRules.Toml

/-- Whether a character may stand in a bare key. -/
def isBareChar (c : Char) : Bool := c.isAlphanum || c = '_' || c = '-'

/-- Reads a simple key. -/
def readSimpleKey (t : Text) : Option (Text × Text) :=
  match t with
  | '"' :: t => readBasic t
  | '\'' :: t => readLiteral t
  | t =>
    match t.takeWhile isBareChar with
    | [] => none
    | name => some (name, t.dropWhile isBareChar)

/-- Reads the parts of a key with the blanks around them. -/
def readParts (t : Text) : Option (List Text × Text) :=
  match readSimpleKey (skipBlanks t) with
  | none => none
  | some (name, rest) =>
    match skipBlanks rest with
    | '.' :: rest' =>
      if rest'.length < t.length then (readParts rest').map fun r => (name :: r.1, r.2) else none
    | rest' => some ([name], rest')
termination_by t.length

/-- The most parts that a key may have. -/
def partBound : Nat := 79

/-- Reads a key with the blanks around it. -/
def readKey (t : Text) : Option (List Text × Text) :=
  (readParts t).filter fun r => r.1.length ≤ partBound

end FormRules.Toml
