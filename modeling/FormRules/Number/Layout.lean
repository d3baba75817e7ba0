import FormRules.Number.Shortest

/-!
# Written forms of doubles

A format says which decimal exponents are written with all digits in their places, and how a tie
between two shortest decimals is settled. In the plain form there is always a digit on both sides of
the point; in the other form the point stands behind the first digit, if more follow, and a signed
exponent behind the mark `e`.
-/

namespace FormRules.Number

/-- How a format writes doubles. -/
structure Layout where
  /-- Whether a number with this decimal exponent is written in the plain form. -/
  plain : Int → Bool
  /-- Which of two equally near shortest decimals is written. -/
  tie : Tie

/-- The plain form of some digits: all of them in their places. -/
def plainForm (x : Digits) : Text :=
  if x.point ≤ 0 then '0' :: '.' :: List.replicate (-x.point).toNat '0' ++ x.digits
  else
    let n := x.point.toNat
    if x.digits.length ≤ n then
      x.digits ++ List.replicate (n - x.digits.length) '0' ++ ['.', '0']
    else x.digits.take n ++ '.' :: x.digits.drop n

/-- The form of some digits with an exponent. -/
def exponentForm (x : Digits) : Text :=
  let e := x.point - 1
  let fraction := x.digits.drop 1
  x.digits.take 1 ++ (if fraction.isEmpty then [] else '.' :: fraction) ++
    'e' :: (if e < 0 then '-' else '+') :: Text.decimal e.natAbs

/-- The written form of a double. -/
def Layout.write (layout : Layout) (x : Binary64) : Text :=
  if x.mantissa = 0 then ['0', '.', '0'] else
  let digits := shortest layout.tie x
  if layout.plain (digits.point - 1) then plainForm digits else exponentForm digits

/-- The written form of a double with its sign. -/
def Layout.writeSigned (layout : Layout) (negative : Bool) (x : Binary64) : Text :=
  if negative then '-' :: layout.write x else layout.write x

end FormRules.Number
