/-!
# Double precision numbers

A finite number of double precision without its sign is a mantissa below `2 ^ 53` times a power of
two not below `2 ^ (-1074)`; the mantissa is at least `2 ^ 52` unless the power is the least one. The
double nearest to a ratio of natural numbers is found in exact arithmetic, a tie going to the even
mantissa; a ratio that would round to `2 ^ 1024` or more has no finite double.

Products and quotients of doubles are the roundings of the exact ones. `scaleByTen` puts a decimal
exponent to a number step by step, rounding at each step, as a reader does that does not look at all
digits at once; `ofDecimal` rounds once.
-/

namespace FormRules

/-- A finite double precision number without its sign, `mantissa * 2 ^ exponent`. -/
structure Binary64 where
  /-- The mantissa, below `2 ^ 53`. -/
  mantissa : Nat
  /-- The exponent of two, from `-1074` to `971`. -/
  exponent : Int
  deriving DecidableEq, Repr, Inhabited

namespace Binary64

/-- Zero. -/
def zero : Binary64 := ⟨0, -1074⟩

/-- The numerator of a number as a ratio. -/
def num (x : Binary64) : Nat := x.mantissa * Nat.pow 2 x.exponent.toNat

/-- The denominator of a number as a ratio. -/
def den (x : Binary64) : Nat := Nat.pow 2 (-x.exponent).toNat

/-- The natural number nearest to a ratio, a tie going to the even one. -/
def roundToEven (num den : Nat) : Nat :=
  let q := num / den
  let twice := 2 * (num % den)
  if twice < den then q else if den < twice then q + 1 else q + q % 2

/-- The exponent of two at which a positive ratio has a mantissa of 53 bits, or the least exponent
if that one is greater. -/
def exponentOf (num den : Nat) : Int :=
  let e := (num.log2 : Int) - den.log2
  let reached : Bool := den * Nat.pow 2 e.toNat ≤ num * Nat.pow 2 (-e).toNat
  max (if reached then e - 52 else e - 53) (-1074)

/-- The double nearest to a ratio; none if it is not finite. -/
def ofRatio (num den : Nat) : Option Binary64 :=
  if num = 0 then some zero else
  let e := exponentOf num den
  let m := roundToEven (num * Nat.pow 2 (-e).toNat) (den * Nat.pow 2 e.toNat)
  let x : Binary64 := if m = Nat.pow 2 53 then ⟨Nat.pow 2 52, e + 1⟩ else ⟨m, e⟩
  if 971 < x.exponent then none else some x

/-- The double nearest to a natural number. -/
def ofNat (n : Nat) : Option Binary64 := ofRatio n 1

/-- The double nearest to a product. -/
def mul (x y : Binary64) : Option Binary64 := ofRatio (x.num * y.num) (x.den * y.den)

/-- The double nearest to a quotient. -/
def div (x y : Binary64) : Option Binary64 := ofRatio (x.num * y.den) (x.den * y.num)

/-- The double nearest to a decimal, `significand * 10 ^ exponent`, that has so many digits in its
significand. Far outside the range of doubles the answer is known without the power of ten. -/
def ofDecimal (significand digits : Nat) (exponent : Int) : Option Binary64 :=
  if significand = 0 ∨ exponent + digits < -400 then some zero
  else if 400 < exponent then none
  else ofRatio (significand * Nat.pow 10 exponent.toNat) (Nat.pow 10 (-exponent).toNat)

/-- The double nearest to a power of ten within the range of doubles, up to `10 ^ 308`. -/
def ten (n : Nat) : Binary64 := (ofRatio (Nat.pow 10 n) 1).getD zero

/-- A number divided so many times by the greatest power of ten, rounded each time. -/
def shrink (x : Binary64) : Nat → Option Binary64
  | 0 => some x
  | steps + 1 => if x = zero then some x else (x.div (ten 308)).bind fun y => shrink y steps

/-- A number times a power of ten, rounded after each multiplication or division; none if the result
is not finite. An exponent below the range of doubles is reached in steps of the greatest power. -/
def scaleByTen (x : Binary64) : Int → Option Binary64
  | .ofNat n => if n ≤ 308 then x.mul (ten n) else if x = zero then some x else none
  | .negSucc n => (x.shrink (n / 308)).bind fun y => y.div (ten (n % 308 + 1))

end Binary64

end FormRules
