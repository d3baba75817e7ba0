import FormRules.Json.Number
import FormRules.Outcome
import FormRules.Proofs.Text.Decimals
import FormRules.Proofs.Text.Pieces

/-!
# Reading integers

An integer of 64 bits, signed or unsigned, is written by decimal digits without a zero in front of
them, behind a minus sign if it is negative (`IntegerText`). It is read from these up to the first
character that cannot go on a number (`readNumber_integerText`).
-/

namespace FormRules.Json

open Outcome Text

/-- A text that does not go on a number: it begins with no digit, no point and no mark of an
exponent. -/
def EndsNumber (t : Text) : Prop := ∀ c ∈ t.head?, isDigit c = false ∧ c ≠ '.' ∧ c ≠ 'e' ∧ c ≠ 'E'

theorem EndsNumber.stops {t : Text} (h : EndsNumber t) : Stops isDigit t := fun c hc => (h c hc).1

theorem endsNumber_cons {c : Char} (h : isDigit c = false ∧ c ≠ '.' ∧ c ≠ 'e' ∧ c ≠ 'E') (t : Text) :
    EndsNumber (c :: t) := by
  rintro d hd
  rw [← Option.some.inj hd]
  exact h

/-! ### Written integers -/

/-- The digits of a whole number: there is one, and a zero stands in front only if it is alone. -/
structure WholeDigits (ds : Text) : Prop where
  /-- They are digits. -/
  isDigit_of_mem : ∀ c ∈ ds, isDigit c = true
  /-- There is one. -/
  ne_nil : ds ≠ []
  /-- No zero stands in front of other digits. -/
  eq_of_head? : ds.head? = some '0' → ds = ['0']

theorem wholeDigits_decimal (n : Nat) : WholeDigits (decimal n) where
  isDigit_of_mem _ hc := isDigit_of_mem_decimal hc
  ne_nil := decimal_ne_nil n
  eq_of_head? := decimal_eq_of_head?

/-- A written form of an integer of 64 bits, signed or unsigned, and the integer. Minus zero is
none. -/
inductive IntegerText : Text → Int → Prop where
  /-- Digits alone. -/
  | plain {ds : Text} : WholeDigits ds → decimalValue ds < wordBound →
      IntegerText ds (decimalValue ds)
  /-- Digits behind a minus sign. -/
  | minus {ds : Text} : WholeDigits ds → 0 < decimalValue ds → decimalValue ds ≤ Nat.pow 2 63 →
      IntegerText ('-' :: ds) (-(decimalValue ds))

/-- An integer is written by its sign and its decimal digits. -/
theorem integerText_signedDecimal {n : Int} (hlo : -(Nat.pow 2 63) ≤ n) (hhi : n < wordBound) :
    IntegerText (signedDecimal n) n := by
  have hpow : Nat.pow 2 63 = 9223372036854775808 := rfl
  have hbound : wordBound = 18446744073709551616 := rfl
  have hvalue := decimalValue_decimal n.natAbs
  have hds := wholeDigits_decimal n.natAbs
  rw [signedDecimal]
  by_cases hneg : n < 0
  · have hminus := IntegerText.minus hds (by omega) (by omega)
    rw [hvalue, show -(n.natAbs : Int) = n by omega] at hminus
    rw [if_pos hneg]
    exact hminus
  · have hplain := IntegerText.plain hds (by omega)
    rw [hvalue, show (n.natAbs : Int) = n by omega] at hplain
    rw [if_neg hneg]
    exact hplain

/-- A written integer begins with a minus sign or a digit. -/
theorem exists_cons_of_integerText {w : Text} {n : Int} (h : IntegerText w n) :
    ∃ c u, w = c :: u ∧ (c = '-' ∨ isDigit c = true) := by
  cases h with
  | plain hds _ =>
    obtain ⟨c, u, rfl⟩ := List.exists_cons_of_ne_nil hds.ne_nil
    exact ⟨c, u, rfl, Or.inr (hds.isDigit_of_mem c List.mem_cons_self)⟩
  | @minus ds _ _ _ => exact ⟨'-', ds, rfl, Or.inl rfl⟩

/-! ### The parts of a number -/

theorem integerDigits_append {ds t : Text} (hds : WholeDigits ds) (ht : Stops isDigit t) :
    integerDigits (ds ++ t) = .ok (ds, t) := by
  have hsome : someDigits (ds ++ t) = .ok (ds, t) := by
    rw [someDigits, Text.takeWhile_append hds.isDigit_of_mem ht,
      Text.dropWhile_append hds.isDigit_of_mem ht]
    cases ds with
    | nil => exact absurd rfl hds.ne_nil
    | cons d ds => rfl
  have hleading : ¬ (ds.head? = some '0' ∧ ds ≠ ['0']) := fun h => h.2 (hds.eq_of_head? h.1)
  rw [integerDigits, hsome, ok_bind]
  exact if_neg hleading

theorem fractionDigits_of_endsNumber {t : Text} (h : EndsNumber t) :
    fractionDigits t = .ok (none, t) := by
  unfold fractionDigits
  split
  · exact absurd rfl (h '.' rfl).2.1
  · rfl

theorem exponentPart_of_endsNumber {t : Text} (h : EndsNumber t) :
    exponentPart t = .ok (none, t) := by
  unfold exponentPart
  split
  · exact absurd rfl (h 'e' rfl).2.2.1
  · exact absurd rfl (h 'E' rfl).2.2.2
  · rfl

/-- Digits of a number of 64 bits are all taken. -/
theorem takeDigits_of_lt {n : Nat} {ds : Text}
    (h : ds.foldl (fun n c => 10 * n + digitValue c) n < wordBound) :
    takeDigits n ds = (ds.foldl (fun n c => 10 * n + digitValue c) n, []) := by
  induction ds generalizing n with
  | nil => rfl
  | cons d ds ih =>
    rw [List.foldl_cons] at h
    have hnext : 10 * n + digitValue d < wordBound := Nat.lt_of_le_of_lt (le_foldl_digits _ ds) h
    rw [takeDigits, List.foldl_cons]
    simp only [if_pos hnext]
    exact ih h

/-! ### Integers -/

/-- Digits of 64 bits, behind a minus sign or not, are read as a whole number. -/
theorem readNumber_append {ds t : Text} (negative : Bool) (hds : WholeDigits ds)
    (hbound : decimalValue ds < wordBound) (ht : EndsNumber t) :
    readNumber ((if negative then ['-'] else []) ++ (ds ++ t)) =
      .ok (whole negative (decimalValue ds), t) := by
  have hinteger : integerDigits (ds ++ t) = .ok (ds, t) := integerDigits_append hds ht.stops
  have htake : takeDigits 0 ds = (decimalValue ds, []) := takeDigits_of_lt hbound
  have hhead : (ds ++ t).head? ≠ some '-' := by
    obtain ⟨d, ds', rfl⟩ := List.exists_cons_of_ne_nil hds.ne_nil
    intro h
    have hdigit := hds.isDigit_of_mem d List.mem_cons_self
    rw [Option.some.inj h] at hdigit
    exact absurd hdigit (by decide)
  unfold readNumber
  cases negative with
  | false =>
    simp only [Bool.false_eq_true, if_false, List.nil_append, hhead, hinteger, ok_bind, htake,
      fractionDigits_of_endsNumber ht, exponentPart_of_endsNumber ht]
    rfl
  | true =>
    simp only [if_true, List.singleton_append, List.head?_cons, List.tail_cons, hinteger, ok_bind,
      htake, fractionDigits_of_endsNumber ht, exponentPart_of_endsNumber ht]
    rfl

/-- **A written integer is read as the integer**, up to the first character that cannot go on a
number. -/
theorem readNumber_integerText {w t : Text} {n : Int} (h : IntegerText w n) (ht : EndsNumber t) :
    readNumber (w ++ t) = .ok (.integer n, t) := by
  cases h with
  | plain hds hbound => exact readNumber_append false hds hbound ht
  | @minus ds hds hpos hbound =>
    have hword : decimalValue ds < wordBound := Nat.lt_of_le_of_lt hbound (by decide)
    have hwhole : whole true (decimalValue ds) = .integer (-(decimalValue ds)) := by
      rw [whole, if_pos rfl, if_pos ⟨hpos, hbound⟩]
    have hread := readNumber_append true hds hword ht
    rw [hwhole] at hread
    exact hread

end FormRules.Json
