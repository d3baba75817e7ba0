import FormRules.Text.Hex
import FormRules.Toml.Blank

/-!
# Strings in TOML

There are four kinds of string. A basic string stands between double quotes and has escapes; a literal
string stands between single quotes and has none. Each kind also comes between three quotes, and then
runs over lines: a line end right behind the opening quotes is dropped, every other line end counts as
a line feed, and one or two quotes inside, or right before the closing three, belong to the text. In
the basic kind a backslash at the end of a line swallows all blanks and line ends that follow.

No string holds a control character other than the tab, line ends between three quotes apart.
-/

namespace FormRules.Toml

/-- The character with some number, if there is one. -/
def scalar? (n : Nat) : Option Char := if n.isValidChar then some (Char.ofNat n) else none

/-- Reads so many hexadecimal digits as the number of a character. -/
def readScalar (count : Nat) (t : Text) : Option (Char × Text) :=
  if t.length < count then none
  else do return (← scalar? (← Text.Hex.number? (t.take count)), t.drop count)

/-- Reads what stands behind a backslash. -/
def readEscape : Text → Option (Char × Text)
  | '"' :: t => some ('"', t)
  | '\\' :: t => some ('\\', t)
  | 'b' :: t => some ('\x08', t)
  | 't' :: t => some ('\t', t)
  | 'n' :: t => some ('\n', t)
  | 'f' :: t => some ('\x0c', t)
  | 'r' :: t => some ('\r', t)
  | 'u' :: t => readScalar 4 t
  | 'U' :: t => readScalar 8 t
  | _ => none

theorem length_le_of_readScalar {count : Nat} {t rest : Text} {c : Char}
    (h : readScalar count t = some (c, rest)) : rest.length ≤ t.length := by
  unfold readScalar at h
  split at h
  · cases h
  · simp only [bind, Option.bind_eq_some_iff, pure, Option.some.injEq, Prod.mk.injEq] at h
    obtain ⟨_, _, _, _, _, rfl⟩ := h
    rw [List.length_drop]
    omega

/-- An escape takes at least one character. -/
theorem length_lt_of_readEscape {t rest : Text} {c : Char} (h : readEscape t = some (c, rest)) :
    rest.length < t.length := by
  unfold readEscape at h
  split at h
  case h_8 t | h_9 t =>
    have := length_le_of_readScalar h
    simp only [List.length_cons]
    omega
  all_goals cases h <;> simp

/-! ### On one line -/

/-- Reads a basic string from behind its opening quote. -/
def readBasic (t : Text) : Option (Text × Text) :=
  match t with
  | [] => none
  | '"' :: rest => some ([], rest)
  | '\\' :: rest =>
    match h : readEscape rest with
    | none => none
    | some (c, rest') =>
      have := length_lt_of_readEscape h
      (readBasic rest').map fun r => (c :: r.1, r.2)
  | c :: rest => if isPlain c then (readBasic rest).map fun r => (c :: r.1, r.2) else none
termination_by t.length

/-- Reads a literal string from behind its opening quote. -/
def readLiteral : Text → Option (Text × Text)
  | [] => none
  | '\'' :: rest => some ([], rest)
  | c :: rest => if isPlain c then (readLiteral rest).map fun r => (c :: r.1, r.2) else none

/-! ### Over several lines -/

/-- Whether a backslash with this text behind it stands at the end of its line. -/
def endsLine (t : Text) : Bool := (passNewline (skipBlanks t)).isSome

/-- Reads the body of a basic string between three quotes, with the closing quotes. -/
def readBasicLines (t : Text) : Option (Text × Text) :=
  match t with
  | '"' :: '"' :: '"' :: '"' :: '"' :: rest => some (['"', '"'], rest)
  | '"' :: '"' :: '"' :: '"' :: rest => some (['"'], rest)
  | '"' :: '"' :: '"' :: rest => some ([], rest)
  | '\r' :: '\n' :: rest => (readBasicLines rest).map fun r => ('\n' :: r.1, r.2)
  | '\n' :: rest => (readBasicLines rest).map fun r => ('\n' :: r.1, r.2)
  | '\\' :: rest =>
    if endsLine rest then
      have := length_skipBlankLines_le rest
      readBasicLines (skipBlankLines rest)
    else
      match h : readEscape rest with
      | none => none
      | some (c, rest') =>
        have := length_lt_of_readEscape h
        (readBasicLines rest').map fun r => (c :: r.1, r.2)
  | c :: rest => if isPlain c then (readBasicLines rest).map fun r => (c :: r.1, r.2) else none
  | [] => none
termination_by t.length

/-- Reads the body of a literal string between three quotes, with the closing quotes. -/
def readLiteralLines : Text → Option (Text × Text)
  | '\'' :: '\'' :: '\'' :: '\'' :: '\'' :: rest => some (['\'', '\''], rest)
  | '\'' :: '\'' :: '\'' :: '\'' :: rest => some (['\''], rest)
  | '\'' :: '\'' :: '\'' :: rest => some ([], rest)
  | '\r' :: '\n' :: rest => (readLiteralLines rest).map fun r => ('\n' :: r.1, r.2)
  | '\n' :: rest => (readLiteralLines rest).map fun r => ('\n' :: r.1, r.2)
  | c :: rest => if isPlain c then (readLiteralLines rest).map fun r => (c :: r.1, r.2) else none
  | [] => none

/-- A text without the line end at its front, if there is one. -/
def dropNewline (t : Text) : Text := (passNewline t).getD t

/-- Reads a string of any kind from its first quote; none if the text begins with something else. -/
def readQuoted : Text → Option (Text × Text)
  | '"' :: '"' :: '"' :: t => readBasicLines (dropNewline t)
  | '"' :: t => readBasic t
  | '\'' :: '\'' :: '\'' :: t => readLiteralLines (dropNewline t)
  | '\'' :: t => readLiteral t
  | _ => none

end FormRules.Toml
