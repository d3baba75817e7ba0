import FormRules.Text.Decimal

/-!
# Dates and times in TOML

A moment is a date, a time of day, or a date with a time behind a `T`, a `t` or a space; a time behind
a date may have an offset, `Z`, `z` or a signed time. Days exist in their month and year, a minute may
have a sixty-first second, and a fraction of a second has any number of digits. Only the extent of a
moment matters to this library, so `passMoment` returns what follows it.
-/

namespace FormRules.Toml

/-- Reads two digits as a number within some bounds. -/
def readTwo (least greatest : Nat) : Text → Option (Nat × Text)
  | a :: b :: t =>
    let n := 10 * Text.digitValue a + Text.digitValue b
    if Text.isDigit a && Text.isDigit b && least ≤ n && n ≤ greatest then some (n, t) else none
  | _ => none

/-- Reads four digits as a year. -/
def readYear : Text → Option (Nat × Text)
  | a :: b :: c :: d :: t =>
    if [a, b, c, d].all Text.isDigit then some (Text.decimalValue [a, b, c, d], t) else none
  | _ => none

/-- Passes one wanted character. -/
def passChar (c : Char) : Text → Option Text
  | d :: t => if d = c then some t else none
  | [] => none

/-- Whether a year has a leap day. -/
def isLeap (year : Nat) : Bool := year % 4 = 0 && (year % 100 ≠ 0 || year % 400 = 0)

/-- How many days a month has. -/
def daysIn (year month : Nat) : Nat :=
  if month = 2 then if isLeap year then 29 else 28
  else if month ∈ [4, 6, 9, 11] then 30
  else 31

/-- Passes a date. -/
def passDate (t : Text) : Option Text := do
  let (year, t) ← readYear t
  let (month, t) ← readTwo 1 12 (← passChar '-' t)
  let (_, t) ← readTwo 1 (daysIn year month) (← passChar '-' t)
  return t

/-- Passes a fraction of a second, if there is one. -/
def skipFraction : Text → Text
  | '.' :: c :: t => if Text.isDigit c then t.dropWhile Text.isDigit else '.' :: c :: t
  | t => t

/-- Passes a time of day. -/
def passTime (t : Text) : Option Text := do
  let (_, t) ← readTwo 0 23 t
  let (_, t) ← readTwo 0 59 (← passChar ':' t)
  let (_, t) ← readTwo 0 60 (← passChar ':' t)
  return skipFraction t

/-- Passes the hours and minutes of an offset. -/
def passSpan (t : Text) : Option Text := do
  let (_, t) ← readTwo 0 23 t
  let (_, t) ← readTwo 0 59 (← passChar ':' t)
  return t

/-- Passes an offset, if there is one. -/
def skipOffset : Text → Text
  | 'Z' :: t => t
  | 'z' :: t => t
  | '+' :: t => (passSpan t).getD ('+' :: t)
  | '-' :: t => (passSpan t).getD ('-' :: t)
  | t => t

/-- Passes a time behind a date, if there is one. -/
def skipTime : Text → Text
  | c :: t =>
    if c = 'T' || c = 't' || c = ' ' then ((passTime t).map skipOffset).getD (c :: t) else c :: t
  | [] => []

/-- Passes a moment. -/
def passMoment (t : Text) : Option Text :=
  match passDate t with
  | some t => some (skipTime t)
  | none => passTime t

end FormRules.Toml
