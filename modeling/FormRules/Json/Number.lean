import FormRules.Json.Fault
import FormRules.Number.Layout

/-!
# Numbers in JSON

A number without fraction and exponent is an integer if it fits 64 bits, signed or unsigned; any
other number, and minus zero, is a double. The double is not the one nearest to the written decimal:
the significand takes digits while it fits 64 bits, the digits left over only count for the exponent
or are dropped, and the power of ten is then multiplied on with a rounding of its own. A number
beyond the range of doubles is malformed.

`readNumber` reads a number from its first character, a digit or a minus sign, to its last.
-/

namespace FormRules.Json

/-- A number that was read. -/
inductive Number where
  /-- An integer. -/
  | integer (n : Int)
  /-- A double with its sign. -/
  | double (negative : Bool) (x : Binary64)
  deriving DecidableEq, Repr

/-- Doubles are written plainly for decimal exponents from -5 to 15, and a tie between two shortest
decimals goes to the even digit. -/
def doubleLayout : Number.Layout := ⟨fun e => -5 ≤ e && e ≤ 15, .even⟩

/-- A number as a mismatch shows it. -/
def Number.found : Number → Found
  | integer n => .integer n
  | double negative x => .floating (doubleLayout.writeSigned negative x)

/-- The unsigned integers of 64 bits are those below this number. -/
def wordBound : Nat := Nat.pow 2 64

/-- Appends digits to a significand while it fits 64 bits; the digits left over come second. -/
def takeDigits (significand : Nat) : Text → Nat × Text
  | [] => (significand, [])
  | d :: ds =>
    let next := 10 * significand + Text.digitValue d
    if next < wordBound then takeDigits next ds else (significand, d :: ds)

/-- The digits at the front of a text; if there are none, the text is at fault. -/
def someDigits (t : Text) : Except Fault (Text × Text) :=
  match t.takeWhile Text.isDigit, t.dropWhile Text.isDigit with
  | [], [] => .error .unfinished
  | [], _ :: _ => .error .malformed
  | ds, rest => .ok (ds, rest)

/-- The digits before the point: one zero, or digits of which the first is not zero. -/
def integerDigits (t : Text) : Except Fault (Text × Text) := do
  let (ds, rest) ← someDigits t
  if ds.head? = some '0' ∧ ds ≠ ['0'] then
    throw .malformed
  return (ds, rest)

/-- The digits behind a point, if there is one. -/
def fractionDigits : Text → Except Fault (Option Text × Text)
  | '.' :: t => (someDigits t).map fun r => (some r.1, r.2)
  | t => .ok (none, t)

/-- The number that an exponent's sign and digits stand for. -/
def signedExponent (t : Text) : Except Fault (Option Int × Text) :=
  match t with
  | '+' :: t => (someDigits t).map fun r => (some (Text.decimalValue r.1 : Int), r.2)
  | '-' :: t => (someDigits t).map fun r => (some (-(Text.decimalValue r.1 : Int)), r.2)
  | t => (someDigits t).map fun r => (some (Text.decimalValue r.1 : Int), r.2)

/-- The exponent behind its mark, if there is one. -/
def exponentPart : Text → Except Fault (Option Int × Text)
  | 'e' :: t => signedExponent t
  | 'E' :: t => signedExponent t
  | t => .ok (none, t)

/-- The greatest exponent that is not beyond all bounds. -/
def exponentBound : Nat := Nat.pow 2 31 - 1

/-- The double of a significand with a power of ten, of which the written exponent is a part. -/
def scaled (negative : Bool) (significand : Nat) (shift written : Int) : Except Fault Number :=
  let x? : Option Binary64 :=
    if exponentBound < written.natAbs then
      if significand ≠ 0 ∧ 0 < written then none else some .zero
    else (Binary64.ofNat significand).bind fun x => x.scaleByTen (shift + written)
  match x? with
  | some x => .ok (.double negative x)
  | none => .error .malformed

/-- An integer, if it fits 64 bits, or else the double nearest to it. -/
def whole (negative : Bool) (n : Nat) : Number :=
  if negative then
    if 0 < n ∧ n ≤ Nat.pow 2 63 then .integer (-n) else .double true ((Binary64.ofNat n).getD .zero)
  else .integer n

/-- Reads a number. -/
def readNumber (t : Text) : Except Fault (Number × Text) := do
  let negative := t.head? = some '-'
  let (ds, t) ← integerDigits (if negative then t.tail else t)
  let (significand, unused) := takeDigits 0 ds
  let (fraction, t) ← fractionDigits t
  let (significand', dropped) := takeDigits significand (fraction.getD [])
  let shift : Int := unused.length - ((fraction.getD []).length - dropped.length)
  let (exponent, t) ← exponentPart t
  if fraction.isNone && exponent.isNone && unused.isEmpty then
    return (whole negative significand, t)
  return (← scaled negative significand' shift (exponent.getD 0), t)

end FormRules.Json
