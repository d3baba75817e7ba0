import FormRules.Text.Hex
import FormRules.Text.Visible

/-!
# Texts quoted in messages

A message shows a path or a value between double quotes. The quote and the backslash are escaped by
a backslash; tab, line feed, carriage return and the null character have a short form; every other
character that does not show by itself is written by its number, `\u{hex}`, in lower case and without
leading zeros.
-/

namespace FormRules.Text

/-- A number in lower-case hexadecimal digits, without leading zeros. -/
def hex (n : Nat) : Text := Nat.toDigits 16 n

/-- A character as it is written inside a quoted text. -/
def shown (c : Char) : Text :=
  if c = '"' then ['\\', '"']
  else if c = '\\' then ['\\', '\\']
  else if c = '\t' then ['\\', 't']
  else if c = '\n' then ['\\', 'n']
  else if c = '\r' then ['\\', 'r']
  else if c = '\x00' then ['\\', '0']
  else if isVisible c then [c]
  else '\\' :: 'u' :: '\x7b' :: hex c.toNat ++ ['\x7d']

/-- A text between double quotes, as messages show it. -/
def quote (t : Text) : Text := '"' :: t.flatMap shown ++ ['"']

end FormRules.Text
