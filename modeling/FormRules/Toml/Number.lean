import FormRules.Text.Hex
import FormRules.Toml.Node

/-!
# Numbers in TOML

An underscore may stand between two digits. Integers are decimal with an optional sign and without
leading zeros, or hexadecimal, octal or binary with a mark and without a sign; all fit 64 bits with a
sign. A float is a decimal integer with a fraction, an exponent or both, or one of the words `inf`
and `nan` with an optional sign; it is the double nearest to what is written. A positive float beyond
the range of doubles is refused, a negative one is the negative infinity.
-/

namespace FormRules.Toml

/-! ### Digits -/

/-- Reads the digits behind a first one, each with at most one underscore in front of it; an
underscore without a digit behind it is refused. -/
def readMoreDigits (isDigit : Char → Bool) : Text → Option (Text × Text)
  | [] => some ([], [])
  | ['_'] => none
  | '_' :: c :: t =>
    if isDigit c then (readMoreDigits isDigit t).map fun r => (c :: r.1, r.2) else none
  | c :: t =>
    if isDigit c then (readMoreDigits isDigit t).map fun r => (c :: r.1, r.2) else some ([], c :: t)

/-- Reads one digit or more. -/
def readDigits (isDigit : Char → Bool) : Text → Option (Text × Text)
  | [] => none
  | c :: t =>
    if isDigit c then (readMoreDigits isDigit t).map fun r => (c :: r.1, r.2) else none

/-- Reads the digits of a decimal integer: one zero, or digits of which the first is not zero. -/
def readWhole : Text → Option (Text × Text)
  | '0' :: t => some (['0'], t)
  | t => readDigits Text.isDigit t

/-- The sign at the front of a text, as whether it is a minus, and the text without it. -/
def takeSign : Text → Bool × Text
  | '-' :: t => (true, t)
  | '+' :: t => (false, t)
  | t => (false, t)

/-! ### Integers -/

/-- An integer of 64 bits with a sign, from its sign and its magnitude. -/
def signed? (negative : Bool) (n : Nat) : Option Int :=
  if negative then if n ≤ Nat.pow 2 63 then some (-n) else none
  else if n < Nat.pow 2 63 then some n else none

/-- The number that digits of some base stand for. -/
def basedValue (base : Nat) (digits : Text) : Nat :=
  digits.foldl (fun n c => base * n + (Text.Hex.value? c).getD 0) 0

/-- Whether a character is a digit of some base up to sixteen. -/
def isBased (base : Nat) (c : Char) : Bool := (Text.Hex.value? c).any (· < base)

/-- Reads the digits of some base behind its mark. -/
def readBased (base : Nat) (t : Text) : Option (Node × Text) := do
  let (digits, t) ← readDigits (isBased base) t
  return (.integer (← signed? false (basedValue base digits)), t)

/-! ### Floats -/

/-- Reads a fraction, if there is one: a point with digits behind it. -/
def readFraction : Text → Option (Option Text × Text)
  | '.' :: t => (readDigits Text.isDigit t).map fun r => (some r.1, r.2)
  | t => some (none, t)

/-- Reads the sign and the digits of an exponent. -/
def readSigned (t : Text) : Option (Option Int × Text) := do
  let (negative, t) := takeSign t
  let (digits, t) ← readDigits Text.isDigit t
  let n : Int := Text.decimalValue digits
  return (some (if negative then -n else n), t)

/-- Reads an exponent with its mark, if there is one. -/
def readExponent : Text → Option (Option Int × Text)
  | 'e' :: t => readSigned t
  | 'E' :: t => readSigned t
  | t => some (none, t)

/-- The float with some digits before and behind the point and a power of ten. -/
def real? (negative : Bool) (whole fraction : Text) (exponent : Int) : Option Real :=
  let digits := whole ++ fraction
  match Binary64.ofDecimal (Text.decimalValue digits) digits.length (exponent - fraction.length) with
  | some x => some (.finite negative x)
  | none => if negative then some (.infinite true) else none

/-- Reads a decimal number behind its sign. -/
def readDecimal (negative : Bool) (t : Text) : Option (Node × Text) := do
  let (whole, t) ← readWhole t
  let (fraction, t) ← readFraction t
  let (exponent, t) ← readExponent t
  if fraction.isNone && exponent.isNone then
    return (.integer (← signed? negative (Text.decimalValue whole)), t)
  return (.real (← real? negative whole (fraction.getD []) (exponent.getD 0)), t)

/-- Reads a number. -/
def readNumber (t : Text) : Option (Node × Text) :=
  match t with
  | '0' :: 'x' :: t => readBased 16 t
  | '0' :: 'o' :: t => readBased 8 t
  | '0' :: 'b' :: t => readBased 2 t
  | t =>
    match takeSign t with
    | (negative, 'i' :: 'n' :: 'f' :: t) => some (.real (.infinite negative), t)
    | (_, 'n' :: 'a' :: 'n' :: t) => some (.real .nan, t)
    | (negative, t) => readDecimal negative t

end FormRules.Toml
