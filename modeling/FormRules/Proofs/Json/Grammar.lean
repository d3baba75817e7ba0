import FormRules.Text.Basic

/-!
# The grammar of JSON objects of strings

What a document that holds an object of strings looks like, said without a reader: the texts are
derived from

    document = ws '{' ws [ member { ',' ws member } ] '}' ws
    member   = entry ws
    entry    = string ws ':' ws string
    string   = '"' { spelling } '"'

where `ws` is a run of blanks and a spelling stands for one character: the character itself, or an
escape that begins with a backslash. Each relation has the written text first and what it stands for
second.
-/

namespace FormRules.Json

/-- A run of spaces, tabs, line feeds and carriage returns. -/
def Blanks (w : Text) : Prop := ∀ c ∈ w, c = ' ' ∨ c = '\t' ∨ c = '\n' ∨ c = '\r'

/-! ### Characters and strings -/

/-- A hexadecimal digit of either case and the number that it stands for. -/
def HexDigit (c : Char) (n : Nat) : Prop :=
  "0123456789abcdef".toList[n]? = some c ∨ "0123456789ABCDEF".toList[n]? = some c

/-- Four hexadecimal digits and the number that they stand for. -/
inductive CodeUnit : Text → Nat → Prop where
  /-- The digits count from the greatest down. -/
  | digits {a b c d : Char} {i j k l : Nat} : HexDigit a i → HexDigit b j → HexDigit c k →
      HexDigit d l → CodeUnit [a, b, c, d] (16 * (16 * (16 * i + j) + k) + l)

/-- The numbers that stand for a character only in a pair, as its first half. -/
def Leading (n : Nat) : Prop := 0xd800 ≤ n ∧ n ≤ 0xdbff

/-- The numbers that stand for a character only in a pair, as its second half. -/
def Trailing (n : Nat) : Prop := 0xdc00 ≤ n ∧ n ≤ 0xdfff

/-- What may follow `\u`, and the character that is written so. -/
inductive UnicodeEscape : Text → Char → Prop where
  /-- One number that is no half of a pair. -/
  | single {w : Text} {n : Nat} : CodeUnit w n → ¬ Leading n → ¬ Trailing n →
      UnicodeEscape w (Char.ofNat n)
  /-- Two halves, the second one with a `\u` of its own directly behind the first. -/
  | pair {w w' : Text} {n m : Nat} : CodeUnit w n → Leading n → CodeUnit w' m → Trailing m →
      UnicodeEscape (w ++ '\\' :: 'u' :: w')
        (Char.ofNat (0x10000 + (n - 0xd800) * 0x400 + (m - 0xdc00)))

/-- The letters of the short escapes, each with the character that it stands for. -/
def shortEscapes : List (Char × Char) := [
  ('"', '"'), ('\\', '\\'), ('/', '/'), ('b', '\x08'), ('f', '\x0c'), ('n', '\n'), ('r', '\r'),
  ('t', '\t')]

/-- What may follow a backslash, and the character that is written so. -/
inductive Escape : Text → Char → Prop where
  /-- One letter. -/
  | short {e c : Char} : (e, c) ∈ shortEscapes → Escape [e] c
  /-- The letter `u` and digits. -/
  | unicode {w : Text} {c : Char} : UnicodeEscape w c → Escape ('u' :: w) c

/-- A written form of a character inside a string. -/
inductive Spelling : Text → Char → Prop where
  /-- The character itself, if it is no quote, no backslash and not below U+0020. -/
  | plain {c : Char} : c ≠ '"' → c ≠ '\\' → 0x20 ≤ c.toNat → Spelling [c] c
  /-- An escape. -/
  | escape {w : Text} {c : Char} : Escape w c → Spelling ('\\' :: w) c

/-- A written form of a text inside a string: of its characters in order. -/
inductive Content : Text → Text → Prop where
  /-- Nothing stands for nothing. -/
  | nil : Content [] []
  /-- One more character in front. -/
  | cons {w u t : Text} {c : Char} : Spelling w c → Content u t → Content (w ++ u) (c :: t)

/-- A written form of a text with its quotes. -/
def StringText (w t : Text) : Prop := ∃ u, Content u t ∧ w = '"' :: (u ++ ['"'])

/-! ### Objects -/

/-- A field's name and its rule text, with a colon and blanks between them. -/
def Entry (w : Text) (m : Text × Text) : Prop :=
  ∃ key b₁ b₂ value, StringText key m.1 ∧ Blanks b₁ ∧ Blanks b₂ ∧ StringText value m.2 ∧
    w = key ++ (b₁ ++ ':' :: (b₂ ++ value))

/-- An entry with the blanks behind it. -/
def Member (w : Text) (m : Text × Text) : Prop := ∃ e b, Entry e m ∧ Blanks b ∧ w = e ++ b

/-- One member or more, with commas between them. -/
inductive Members : Text → List (Text × Text) → Prop where
  /-- The last member. -/
  | last {w : Text} {m : Text × Text} : Member w m → Members w [m]
  /-- A member and those behind a comma. -/
  | more {w b u : Text} {m : Text × Text} {ms : List (Text × Text)} : Member w m → Blanks b →
      Members u ms → Members (w ++ ',' :: (b ++ u)) (m :: ms)

/-- What stands between the braces of an object, the blanks at its front aside: members or
nothing. -/
inductive Body : Text → List (Text × Text) → Prop where
  /-- An object without members. -/
  | none : Body [] []
  /-- An object with members. -/
  | some {w : Text} {ms : List (Text × Text)} : Members w ms → Body w ms

/-- A document that holds an object of strings, and the members of the object in order. -/
def Document (t : Text) (ms : List (Text × Text)) : Prop :=
  ∃ b₁ b₂ w b₃, Blanks b₁ ∧ Blanks b₂ ∧ Body w ms ∧ Blanks b₃ ∧
    t = b₁ ++ '{' :: (b₂ ++ (w ++ '}' :: b₃))

end FormRules.Json
