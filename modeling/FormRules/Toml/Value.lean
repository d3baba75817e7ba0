import FormRules.Toml.Key
import FormRules.Toml.Moment
import FormRules.Toml.Number
import FormRules.Toml.Table

/-!
# Values in TOML

The first character of a value tells its kind. Arrays take blanks, line ends and comments between
their items and a comma behind the last; tables between braces stand on one line and take neither.
Both may be nested to a depth of seventy-nine.

`readItems` and `readPairs` read what stands between the brackets, given a reader for a single value;
`readValue` ties the knot by recursion on the depth that is left.
-/

namespace FormRules.Toml

/-- Reads the items of an array from behind its opening bracket, or from behind a comma. -/
def readItems (item : Text → Option (Node × Text)) (t : Text) : Option (List Node × Text) :=
  match skipGap false t with
  | none => none
  | some (']' :: rest) => some ([], rest)
  | some t₁ =>
    match item t₁ with
    | none => none
    | some (v, t₂) =>
      match skipGap false t₂ with
      | some (',' :: rest) =>
        if rest.length < t.length then (readItems item rest).map fun r => (v :: r.1, r.2) else none
      | some (']' :: rest) => some ([v], rest)
      | _ => none
termination_by t.length

/-- Reads a key, an equals sign and a value, with the blanks around them. -/
def readPair (item : Text → Option (Node × Text)) (t : Text) : Option (Pair × Text) := do
  let (parts, t) ← readKey t
  let t ← passChar '=' t
  let (v, t) ← item (skipBlanks t)
  return (⟨parts.dropLast, parts.getLastD [], v⟩, skipBlanks t)

/-- Reads pairs up to and with the closing brace. -/
def readPairs (item : Text → Option (Node × Text)) (t : Text) : Option (List Pair × Text) :=
  match readPair item t with
  | none => none
  | some (pair, ',' :: rest) =>
    if rest.length < t.length then (readPairs item rest).map fun r => (pair :: r.1, r.2) else none
  | some (pair, '}' :: rest) => some ([pair], rest)
  | some _ => none
termination_by t.length

/-- Reads a table between braces from behind the opening one. -/
def readBraced (item : Text → Option (Node × Text)) (t : Text) : Option (Node × Text) :=
  match skipBlanks t with
  | '}' :: rest => some (.table .braced [], rest)
  | _ => do
    let (pairs, rest) ← readPairs item t
    return (← bracedTable pairs, rest)

/-- Reads a value without brackets or braces. -/
def readScalarValue (t : Text) : Option (Node × Text) :=
  match t with
  | '"' :: _ => (readQuoted t).map fun r => (.string r.1, r.2)
  | '\'' :: _ => (readQuoted t).map fun r => (.string r.1, r.2)
  | 't' :: 'r' :: 'u' :: 'e' :: t => some (.boolean true, t)
  | 'f' :: 'a' :: 'l' :: 's' :: 'e' :: t => some (.boolean false, t)
  | t =>
    match passMoment t with
    | some t => some (.moment, t)
    | none => readNumber t

/-- Reads a value with arrays and tables nested to a given depth. -/
def readValue : Nat → Text → Option (Node × Text)
  | 0, t => readScalarValue t
  | depth + 1, t =>
    match t with
    | '[' :: t => (readItems (readValue depth) t).map fun r => (.array r.1, r.2)
    | '{' :: t => readBraced (readValue depth) t
    | t => readScalarValue t

/-- How deeply arrays and tables may be nested. -/
def depthBound : Nat := 79

end FormRules.Toml
