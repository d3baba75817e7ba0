import FormRules.Proofs.Toml.Grammar

/-!
# The grammar of declarations

A flat document leaves out some written forms of strings and integers. With them a line is a
declaration of a name, and what a declaration looks like is said here without a reader:

    value    = flat value | lines | integer
    lines    = three quotes [ line end ] { piece | line end | quotes } three to five quotes
    integer  = [ sign ] digits | '0' 'x' digits | '0' 'o' digits | '0' 'b' digits
    digits   = digit { [ '_' ] digit }

where the quotes are double or single throughout. Between double quotes a piece is a written form of a
character, or a backslash at the end of a line with all blanks and line ends behind it, which stands
for nothing; between single quotes it is a character that stands for itself. One or two quotes may
stand anywhere inside. Every line of a flat document is a declaration or idle (`Declaration.of_line`).
-/

namespace FormRules.Toml

/-! ### Integers -/

/-- A digit of some base up to sixteen, of either case, and the number that it stands for. -/
def Digit (base : Nat) (c : Char) (k : Nat) : Prop := Json.HexDigit c k ∧ k < base

/-- Digits of some base, from the greatest down, with or without an underscore between neighbours, and
the number that they stand for. -/
inductive Digits (base : Nat) : Text → Nat → Prop where
  /-- One digit. -/
  | one {c : Char} {k : Nat} : Digit base c k → Digits base [c] k
  /-- One more digit at the end. -/
  | snoc {w : Text} {c : Char} {n k : Nat} : Digits base w n → Digit base c k →
      Digits base (w ++ [c]) (base * n + k)
  /-- One more digit at the end, behind an underscore. -/
  | spaced {w : Text} {c : Char} {n k : Nat} : Digits base w n → Digit base c k →
      Digits base (w ++ ['_', c]) (base * n + k)

/-- A decimal number without leading zeros. -/
inductive Whole : Text → Nat → Prop where
  /-- Zero. -/
  | zero : Whole ['0'] 0
  /-- Digits of which the first is not zero. -/
  | digits {w : Text} {n : Nat} : Digits 10 w n → w.head? ≠ some '0' → Whole w n

/-- The marks behind a zero that name a base. -/
def baseMarks : List (Char × Nat) := [('x', 16), ('o', 8), ('b', 2)]

/-- An integer. -/
inductive Numeral : Text → Int → Prop where
  /-- A decimal number without a sign. -/
  | unsigned {w : Text} {n : Nat} : Whole w n → Numeral w n
  /-- A decimal number with a plus sign. -/
  | plus {w : Text} {n : Nat} : Whole w n → Numeral ('+' :: w) n
  /-- A decimal number with a minus sign. -/
  | minus {w : Text} {n : Nat} : Whole w n → Numeral ('-' :: w) (-n)
  /-- A number of another base. -/
  | based {mark : Char} {base : Nat} {w : Text} {n : Nat} : (mark, base) ∈ baseMarks →
      Digits base w n → Numeral ('0' :: mark :: w) n

/-! ### Strings over several lines -/

/-- A run of blanks and line ends. -/
inductive BlankLines : Text → Prop where
  /-- Nothing. -/
  | nil : BlankLines []
  /-- One more blank in front. -/
  | blank {c : Char} {w : Text} : c = ' ' ∨ c = '\t' → BlankLines w → BlankLines (c :: w)
  /-- One more line end in front. -/
  | newline {e w : Text} : LineEnd e → BlankLines w → BlankLines (e ++ w)

/-- A text that does not begin with some of the characters in a list. -/
def NotAhead (cs : List Char) (t : Text) : Prop := ∀ c ∈ t.head?, c ∉ cs

/-- A piece between three double quotes, before some text, and what it stands for. -/
inductive BasicPiece : Text → Text → Text → Prop where
  /-- A written form of a character. -/
  | spelling {w u : Text} {c : Char} : Spelling w c → BasicPiece w u [c]
  /-- A backslash at the end of a line, up to the next character that is no blank. -/
  | continued {b e g u : Text} : Blanks b → LineEnd e → BlankLines g →
      NotAhead [' ', '\t', '\n', '\r'] u → BasicPiece ('\\' :: (b ++ (e ++ g))) u []

/-- A piece between three single quotes, and what it stands for. -/
inductive LiteralPiece : Text → Text → Text → Prop where
  /-- A character that stands for itself. -/
  | plain {u : Text} {c : Char} : Plain c → c ≠ '\'' → LiteralPiece [c] u [c]

/-- What stands behind three opening quotes, with the closing quotes, and the text that it stands
for. -/
inductive LinesBody (quote : Char) (Piece : Text → Text → Text → Prop) : Text → Text → Prop where
  /-- Three closing quotes, and in front of them up to two that belong to the text. -/
  | close {n : Nat} : n ≤ 2 →
      LinesBody quote Piece (List.replicate (n + 3) quote) (List.replicate n quote)
  /-- One more piece in front. -/
  | piece {w s u t : Text} : Piece w u s → LinesBody quote Piece u t →
      LinesBody quote Piece (w ++ u) (s ++ t)
  /-- One more line end in front. -/
  | newline {e u t : Text} : LineEnd e → LinesBody quote Piece u t →
      LinesBody quote Piece (e ++ u) ('\n' :: t)
  /-- One more quote in front, or two. -/
  | quotes {n : Nat} {u t : Text} : n ≤ 2 → NotAhead [quote] u → LinesBody quote Piece u t →
      LinesBody quote Piece (List.replicate n quote ++ u) (List.replicate n quote ++ t)

/-- A string between three quotes, with a line end behind the opening ones that does not count, or
without. -/
inductive LinesString (quote : Char) (Piece : Text → Text → Text → Prop) : Text → Text → Prop where
  /-- The text begins behind the quotes. -/
  | here {u t : Text} : NotAhead ['\n', '\r'] u → LinesBody quote Piece u t →
      LinesString quote Piece (quote :: quote :: quote :: u) t
  /-- The text begins on the next line. -/
  | below {e u t : Text} : LineEnd e → LinesBody quote Piece u t →
      LinesString quote Piece (quote :: quote :: quote :: (e ++ u)) t

/-! ### Declarations -/

/-- A value without brackets: a string, a truth value or an integer of 64 bits with a sign. -/
inductive ValueForm : Text → Scalar → Prop where
  /-- A value of a flat document. -/
  | flat {w : Text} {v : Scalar} : ValueText w v → ValueForm w v
  /-- An integer. -/
  | integer {w : Text} {n : Int64} : Numeral w n.toInt → ValueForm w (.integer n)
  /-- A string between three double quotes. -/
  | basicLines {w t : Text} : LinesString '"' BasicPiece w t → ValueForm w (.string t)
  /-- A string between three single quotes. -/
  | literalLines {w t : Text} : LinesString '\'' LiteralPiece w t → ValueForm w (.string t)

/-- A line without its end, and the member that it declares, if it declares one. -/
inductive Declaration : Text → Option FlatMember → Prop where
  /-- A blank line, or one with a comment only. -/
  | idle {b k : Text} : Blanks b → Comment k → Declaration (b ++ k) none
  /-- A key and a value. -/
  | pair {b₁ key b₂ b₃ value b₄ k : Text} {m : FlatMember} : Blanks b₁ → KeyText key m.1 →
      Blanks b₂ → Blanks b₃ → ValueForm value m.2 → Blanks b₄ → Comment k →
      Declaration (b₁ ++ (key ++ (b₂ ++ '=' :: (b₃ ++ (value ++ (b₄ ++ k)))))) (some m)

/-- A document of declarations and idle lines, and the members that are declared, in order. -/
inductive Declarations : Text → List FlatMember → Prop where
  /-- The last line. -/
  | last {w : Text} {m : Option FlatMember} : Declaration w m → Declarations w m.toList
  /-- A line with its end, and the lines behind it. -/
  | more {w e u : Text} {m : Option FlatMember} {ms : List FlatMember} : Declaration w m →
      LineEnd e → Declarations u ms → Declarations (w ++ (e ++ u)) (m.toList ++ ms)

/-- A key and a value with nothing but an equals sign between them. -/
theorem Declaration.of_parts (key value : Text) (m : FlatMember) (hkey : KeyText key m.1)
    (hvalue : ValueForm value m.2) : Declaration (key ++ '=' :: value) (some m) := by
  have hpair := @Declaration.pair [] key [] [] value [] [] m (by decide) hkey (by decide) (by decide)
    hvalue (by decide) .none
  simpa using hpair

theorem Declaration.of_line {w : Text} {m : Option FlatMember} (h : Line w m) : Declaration w m := by
  cases h with
  | idle hb hk => exact .idle hb hk
  | pair hb₁ hkey hb₂ hb₃ hvalue hb₄ hk => exact .pair hb₁ hkey hb₂ hb₃ (.flat hvalue) hb₄ hk

/-- A flat document is a document of declarations. -/
theorem Declarations.of_flat {t : Text} {ms : List FlatMember} (h : FlatDocument t ms) :
    Declarations t ms := by
  induction h with
  | last hline => exact .last (.of_line hline)
  | more hline he _ ih => exact .more (.of_line hline) he ih

end FormRules.Toml
