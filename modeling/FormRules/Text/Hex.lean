import FormRules.Text.Basic

/-!
# Hexadecimal digits

Digits are written in lower case and read in either case. The law of the pair is
`value?_digit`: a written digit reads as itself.
-/

namespace FormRules.Text.Hex

/-- The digit for a number below sixteen. -/
def digit (n : Nat) : Char := Nat.digitChar n

/-- The number that a digit of either case stands for. -/
def value? (c : Char) : Option Nat :=
  if '0' ≤ c ∧ c ≤ '9' then some (c.toNat - '0'.toNat)
  else if 'a' ≤ c ∧ c ≤ 'f' then some (c.toNat - 'a'.toNat + 10)
  else if 'A' ≤ c ∧ c ≤ 'F' then some (c.toNat - 'A'.toNat + 10)
  else none

/-- The number that a run of digits stands for; none if a character is no digit. -/
def number? (digits : Text) : Option Nat :=
  digits.foldl (fun n c => n.bind fun n => (value? c).map (16 * n + ·)) (some 0)

/-- A written digit reads as itself. -/
theorem value?_digit : ∀ n : Fin 16, value? (digit n) = some n.val := by decide

end FormRules.Text.Hex
