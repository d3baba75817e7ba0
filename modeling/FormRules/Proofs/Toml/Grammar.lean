import FormRules.Proofs.Flat.Scalar
import FormRules.Proofs.Json.Grammar
import FormRules.Toml.Blank

/-!
# The grammar of flat TOML documents

What a document looks like that holds nothing but names with values on one line, said without a reader:
its lines are derived from

    line   = ws [ comment ] | ws key ws '=' ws value ws [ comment ]
    key    = bare | basic | literal
    value  = basic | literal | "true" | "false" | [ sign ] digits

where `ws` is a run of spaces and tabs, a basic string has escapes and a literal string has none. A
line end stands between neighbouring lines, so that a document with a line end at its end has one more
line, an empty one. Each relation has the written text first and what it stands for second.
-/

namespace FormRules.Toml

/-- A run of spaces and tabs. -/
def Blanks (w : Text) : Prop := ∀ c ∈ w, c = ' ' ∨ c = '\t'

/-- A character that may stand for itself: a tab or no control character. -/
def Plain (c : Char) : Prop := c = '\t' ∨ (0x20 ≤ c.toNat ∧ c.toNat ≠ 0x7f)

/-- A run of characters that stand for themselves. -/
def PlainText (w : Text) : Prop := ∀ c ∈ w, Plain c

instance : DecidablePred Blanks := fun w => List.decidableBAll (fun c => c = ' ' ∨ c = '\t') w

instance : DecidablePred Plain := fun c =>
  inferInstanceAs (Decidable (c = '\t' ∨ (0x20 ≤ c.toNat ∧ c.toNat ≠ 0x7f)))

instance : DecidablePred PlainText := fun w => List.decidableBAll Plain w

/-! ### Strings -/

/-- A run of hexadecimal digits, from the greatest down, and the number that they stand for. -/
inductive HexNumber : Text → Nat → Prop where
  /-- No digits. -/
  | nil : HexNumber [] 0
  /-- One more digit at the end. -/
  | snoc {w : Text} {c : Char} {n k : Nat} : HexNumber w n → Json.HexDigit c k →
      HexNumber (w ++ [c]) (16 * n + k)

/-- The letters of the short escapes, each with the character that it stands for. -/
def shortEscapes : List (Char × Char) := [
  ('"', '"'), ('\\', '\\'), ('b', '\x08'), ('t', '\t'), ('n', '\n'), ('f', '\x0c'), ('r', '\r')]

/-- What may follow a backslash, and the character that is written so. -/
inductive Escape : Text → Char → Prop where
  /-- One letter. -/
  | short {e c : Char} : (e, c) ∈ shortEscapes → Escape [e] c
  /-- The number of the character in four digits. -/
  | four {w : Text} {c : Char} : HexNumber w c.toNat → w.length = 4 → Escape ('u' :: w) c
  /-- The number of the character in eight digits. -/
  | eight {w : Text} {c : Char} : HexNumber w c.toNat → w.length = 8 → Escape ('U' :: w) c

/-- A written form of a character inside a basic string. -/
inductive Spelling : Text → Char → Prop where
  /-- The character itself, if it is no quote and no backslash. -/
  | plain {c : Char} : Plain c → c ≠ '"' → c ≠ '\\' → Spelling [c] c
  /-- An escape. -/
  | escape {w : Text} {c : Char} : Escape w c → Spelling ('\\' :: w) c

/-- A written form of a text inside a basic string: of its characters in order. -/
inductive Content : Text → Text → Prop where
  /-- Nothing stands for nothing. -/
  | nil : Content [] []
  /-- One more character in front. -/
  | cons {w u t : Text} {c : Char} : Spelling w c → Content u t → Content (w ++ u) (c :: t)

/-- A string on one line with its quotes, and the text that it stands for. -/
inductive StringText : Text → Text → Prop where
  /-- A basic string, between double quotes. -/
  | basic {w t : Text} : Content w t → StringText ('"' :: (w ++ ['"'])) t
  /-- A literal string, between single quotes. -/
  | literal {t : Text} : PlainText t → '\'' ∉ t → StringText ('\'' :: (t ++ ['\''])) t

/-! ### Keys and values -/

/-- A run of letters, digits, underscores and dashes of ASCII. -/
def Bare (t : Text) : Prop := ∀ c ∈ t, c.isAlphanum = true ∨ c = '_' ∨ c = '-'

instance : DecidablePred Bare := fun t =>
  List.decidableBAll (fun c : Char => c.isAlphanum = true ∨ c = '_' ∨ c = '-') t

/-- A key of one part, and the name that it stands for. -/
inductive KeyText : Text → Text → Prop where
  /-- The name itself. -/
  | bare {t : Text} : Bare t → t ≠ [] → KeyText t t
  /-- A string. -/
  | quoted {w t : Text} : StringText w t → KeyText w t

/-- An integer in plain decimal. -/
inductive IntegerText : Text → Int → Prop where
  /-- Without a sign. -/
  | unsigned (n : Nat) : IntegerText (Text.decimal n) n
  /-- With a plus sign. -/
  | plus (n : Nat) : IntegerText ('+' :: Text.decimal n) n
  /-- With a minus sign. -/
  | minus (n : Nat) : IntegerText ('-' :: Text.decimal n) (-n)

/-- A value on one line. -/
inductive ValueText : Text → Scalar → Prop where
  /-- A string. -/
  | string {w t : Text} : StringText w t → ValueText w (.string t)
  /-- A truth value. -/
  | boolean (b : Bool) : ValueText (if b then "true".toList else "false".toList) (.boolean b)
  /-- An integer. -/
  | integer {w : Text} {n : Int64} : IntegerText w n.toInt → ValueText w (.integer n)

/-! ### Lines -/

/-- A comment, or nothing. -/
inductive Comment : Text → Prop where
  /-- Nothing. -/
  | none : Comment []
  /-- A number sign with characters that stand for themselves. -/
  | some {w : Text} : PlainText w → Comment ('#' :: w)

/-- A line without its end, and the member that it holds, if it holds one. -/
inductive Line : Text → Option FlatMember → Prop where
  /-- A blank line, or one with a comment only. -/
  | idle {b k : Text} : Blanks b → Comment k → Line (b ++ k) none
  /-- A key and a value. -/
  | pair {b₁ key b₂ b₃ value b₄ k : Text} {m : FlatMember} : Blanks b₁ → KeyText key m.1 →
      Blanks b₂ → Blanks b₃ → ValueText value m.2 → Blanks b₄ → Comment k →
      Line (b₁ ++ (key ++ (b₂ ++ '=' :: (b₃ ++ (value ++ (b₄ ++ k)))))) (some m)

/-- A line end: a line feed, alone or behind a carriage return. -/
def LineEnd (e : Text) : Prop := e = ['\n'] ∨ e = ['\r', '\n']

/-- A document with a member on each line that is not idle, and those members in order. -/
inductive FlatDocument : Text → List FlatMember → Prop where
  /-- The last line. -/
  | last {w : Text} {m : Option FlatMember} : Line w m → FlatDocument w m.toList
  /-- A line with its end, and the lines behind it. -/
  | more {w e u : Text} {m : Option FlatMember} {ms : List FlatMember} : Line w m → LineEnd e →
      FlatDocument u ms → FlatDocument (w ++ (e ++ u)) (m.toList ++ ms)

end FormRules.Toml
