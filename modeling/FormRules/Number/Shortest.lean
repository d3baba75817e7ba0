import FormRules.Number.Binary64
import FormRules.Text.Decimal

/-!
# The shortest decimal of a double

A double is printed with the fewest digits that read back as the same double. All reals between the
middles to its two neighbours read back as it, the middles themselves if its mantissa is even. For
one digit, two digits and so on the two points of the decimal grid around the double are tried; the
first grid with a point between the middles gives the digits. Of two such points the nearer is taken;
an exact tie is for the format to settle (`Tie`).

The digits stand for `0.d₁d₂… * 10 ^ point`.
-/

namespace FormRules.Number

/-- Which of two decimals of one length goes for a double that lies midway between them. -/
inductive Tie where
  /-- The one with the even last digit. -/
  | even
  /-- The greater one. -/
  | up
  deriving DecidableEq, Repr

/-- Decimal digits with the place of the point: `0.d₁d₂… * 10 ^ point`. -/
structure Digits where
  /-- The digits; the first and the last are not zero. -/
  digits : Text
  /-- How many digits stand before the point; negative for zeros behind it. -/
  point : Int
  deriving DecidableEq, Repr

/-- A text without the zeros at its end. -/
def dropTrailingZeros (t : Text) : Text := (t.reverse.dropWhile (· == '0')).reverse

/-- The least `p` with a positive ratio below `10 ^ p`. -/
def magnitude (num den : Nat) : Int :=
  let p := ((Text.decimal num).length : Int) - (Text.decimal den).length
  if den * Nat.pow 10 p.toNat ≤ num * Nat.pow 10 (-p).toNat then p + 1 else p

/-- A point of the grid of multiples of `10 ^ k` that reads back as a double: the nearer one of the
two around it, or none if neither reads back. -/
def gridPoint? (tie : Tie) (x : Binary64) (k : Int) : Option Nat :=
  -- all quantities in quarters of a unit of the mantissa, times a common denominator
  let unit := Nat.pow 2 x.exponent.toNat * Nat.pow 10 (-k).toNat
  let step := 4 * Nat.pow 10 k.toNat * Nat.pow 2 (-x.exponent).toNat
  let value := 4 * x.mantissa * unit
  let below := if x.mantissa = Nat.pow 2 52 ∧ -1074 < x.exponent then unit else 2 * unit
  let above := 2 * unit
  let closed : Bool := x.mantissa % 2 = 0
  let d := value / step
  let down := value - d * step
  let up := (d + 1) * step - value
  let downFits : Bool := if closed then down ≤ below else down < below
  let upFits : Bool := if closed then up ≤ above else up < above
  let downNearer : Bool :=
    if down = up then (match tie with | .even => d % 2 = 0 | .up => false) else down < up
  match downFits, upFits with
  | true, true => some (if downNearer then d else d + 1)
  | true, false => some d
  | false, true => some (d + 1)
  | false, false => none

/-- The digits of a positive double. Seventeen digits always read back. -/
def shortest (tie : Tie) (x : Binary64) : Digits :=
  let p := magnitude x.num x.den
  let found := (List.range 17).findSome? fun i =>
    let k : Int := p - ((i + 1 : Nat) : Int)
    (gridPoint? tie x k).map fun d => (d, k)
  let (d, k) := found.getD (0, p)
  let digits := Text.decimal d
  ⟨dropTrailingZeros digits, digits.length + k⟩

end FormRules.Number
