import FormRules.Text.Basic

/-!
# Blanks, line ends and comments in TOML

Spaces and tabs may stand around the parts of a line. A line ends with a line feed, alone or behind a
carriage return, or with the document. A comment runs from a number sign to the end of its line and
holds no control character but tabs. Between the items of an array blanks, line ends and comments may
be mixed: `skipGap` passes all of them.
-/

namespace FormRules.Toml

/-- Whether a character is a space or a tab. -/
def isBlank (c : Char) : Bool := c = ' ' || c = '\t'

/-- A text without the spaces and tabs at its front. -/
def skipBlanks (t : Text) : Text := t.dropWhile isBlank

/-- Passes a line end. -/
def passNewline : Text → Option Text
  | '\n' :: t => some t
  | '\r' :: '\n' :: t => some t
  | _ => none

/-- Whether a character may stand for itself in a comment or a string: a tab or no control
character. -/
def isPlain (c : Char) : Bool := c = '\t' || (0x20 ≤ c.toNat && c.toNat ≠ 0x7f)

/-- A text without the comment at its front, if there is one. -/
def skipComment : Text → Text
  | '#' :: t => t.dropWhile isPlain
  | t => t

/-- Passes the rest of a line behind its last part: blanks, a comment and the line end, or the end of
the document. -/
def passLineEnd (t : Text) : Option Text :=
  match skipComment (skipBlanks t) with
  | [] => some []
  | t => passNewline t

/-- Passes blanks, line ends and comments, each comment with its line end; inside a comment at
first or not. -/
def skipGap (inComment : Bool) : Text → Option Text
  | [] => if inComment then none else some []
  | '\n' :: t => skipGap false t
  | '\r' :: '\n' :: t => skipGap false t
  | c :: t =>
    if inComment then if isPlain c then skipGap true t else none
    else if isBlank c then skipGap false t
    else if c = '#' then skipGap true t
    else if c = '\r' then none
    else some (c :: t)

/-- Passes spaces, tabs and line ends. -/
def skipBlankLines : Text → Text
  | '\r' :: '\n' :: t => skipBlankLines t
  | c :: t => if isBlank c || c = '\n' then skipBlankLines t else c :: t
  | [] => []

theorem length_skipBlankLines_le (t : Text) : (skipBlankLines t).length ≤ t.length := by
  fun_induction skipBlankLines t with
  | case1 t ih =>
    simp only [List.length_cons]
    omega
  | case2 c t _ _ ih =>
    simp only [List.length_cons]
    omega
  | case3 => exact Nat.le_refl _
  | case4 => exact Nat.le_refl _

end FormRules.Toml
