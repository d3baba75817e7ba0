import FormRules.Proofs.Json.Strings
import FormRules.Proofs.Text.Decimals
import FormRules.Proofs.Toml.Blank
import FormRules.Toml.Value
import Mathlib.Data.List.Basic

/-!
# Reading integers of TOML

A number is told from the other values that begin with a digit by what follows its digits: a date has
a dash there and a time has a colon (`exists_digits_of_passMoment`), a number of another base has its
mark behind one zero, and a float has a point or an exponent. None of these follows a value on its
line (`EndsValue`). The digits themselves are read up to there, whether underscores stand between them
or not (`readDigits_append`).
-/

namespace FormRules.Toml

open Text (isDigit decimal decimalValue)

/-! ### Moments -/

theorem passChar_eq_some_iff {c : Char} {t rest : Text} :
    passChar c t = some rest ↔ t = c :: rest := by
  cases t with
  | nil => simp [passChar]
  | cons d t => simp [passChar]

theorem exists_digits_of_readTwo {least greatest n : Nat} {t rest : Text}
    (h : readTwo least greatest t = some (n, rest)) :
    ∃ ds, (∀ c ∈ ds, isDigit c = true) ∧ ds ≠ [] ∧ t = ds ++ rest := by
  unfold readTwo at h
  split at h
  · rename_i a b t
    simp only at h
    split at h
    · rename_i hcond
      simp only [Bool.and_eq_true] at hcond
      cases h
      exact ⟨[a, b], by simp [hcond.1.1.1, hcond.1.1.2], List.cons_ne_nil _ _, rfl⟩
    · cases h
  · cases h

theorem exists_digits_of_readYear {n : Nat} {t rest : Text} (h : readYear t = some (n, rest)) :
    ∃ ds, (∀ c ∈ ds, isDigit c = true) ∧ ds ≠ [] ∧ t = ds ++ rest := by
  unfold readYear at h
  split at h
  · rename_i a b c d t
    split at h
    · rename_i hall
      cases h
      exact ⟨[a, b, c, d], List.all_eq_true.mp hall, List.cons_ne_nil _ _, rfl⟩
    · cases h
  · cases h

/-- A moment begins with digits, and behind them stands a dash or a colon. -/
theorem exists_digits_of_passMoment {t rest : Text} (h : passMoment t = some rest) :
    ∃ ds c u, (∀ d ∈ ds, isDigit d = true) ∧ ds ≠ [] ∧ (c = '-' ∨ c = ':') ∧ t = ds ++ c :: u := by
  unfold passMoment at h
  cases hdate : passDate t with
  | some t' =>
    simp only [passDate, bind, Option.bind_eq_some_iff] at hdate
    obtain ⟨⟨year, t₁⟩, hyear, t₂, hpass, -⟩ := hdate
    obtain ⟨ds, hds, hne, rfl⟩ := exists_digits_of_readYear hyear
    rw [passChar_eq_some_iff] at hpass
    exact ⟨ds, '-', t₂, hds, hne, Or.inl rfl, by rw [← hpass]⟩
  | none =>
    rw [hdate] at h
    simp only [passTime, bind, Option.bind_eq_some_iff] at h
    obtain ⟨⟨hour, t₁⟩, hhour, t₂, hpass, -⟩ := h
    obtain ⟨ds, hds, hne, rfl⟩ := exists_digits_of_readTwo hhour
    rw [passChar_eq_some_iff] at hpass
    exact ⟨ds, ':', t₂, hds, hne, Or.inr rfl, by rw [← hpass]⟩

/-! ### Digits -/

theorem Digit.value? {base : Nat} {c : Char} {k : Nat} (h : Digit base c k) :
    Text.Hex.value? c = some k :=
  Json.hexValue?_eq_some_iff.mpr h.1

/-- A digit of a base is a character that the reader of this base takes. -/
theorem Digit.isBased {base : Nat} {c : Char} {k : Nat} (h : Digit base c k) :
    isBased base c = true := by
  rw [Toml.isBased, h.value?, Option.any_some, decide_eq_true_eq]
  exact h.2

/-- The characters that the reader of base ten takes are the decimal digits. -/
theorem isBased_ten (c : Char) : isBased 10 c = isDigit c := by
  unfold isBased Text.Hex.value? isDigit
  by_cases hdigit : '0' ≤ c ∧ c ≤ '9'
  · have hlt : c.toNat - '0'.toNat < 10 := by
      have hle : c.toNat ≤ '9'.toNat := hdigit.2
      have hzero : '0'.toNat = 48 := rfl
      have hnine : '9'.toNat = 57 := rfl
      omega
    rw [if_pos hdigit, Option.any_some, decide_eq_true hlt, decide_eq_true hdigit.1,
      decide_eq_true hdigit.2]
    rfl
  · rw [if_neg hdigit, ← Bool.decide_and, decide_eq_false hdigit]
    split
    · simp
    · split <;> simp

/-- A digit is none of the characters that stand for no number, such as an underscore. -/
theorem Digit.ne {base : Nat} {c : Char} {k : Nat} (h : Digit base c k) {d : Char}
    (hd : Text.Hex.value? d = none) : c ≠ d := by
  rintro rfl
  rw [h.value?] at hd
  cases hd

theorem basedValue_concat (base : Nat) (ds : Text) (c : Char) :
    basedValue base (ds ++ [c]) = base * basedValue base ds + (Text.Hex.value? c).getD 0 := by
  rw [basedValue, List.foldl_append]
  rfl

/-- A digit is taken before those behind it. -/
theorem readMoreDigits_digit {base : Nat} {c : Char} {k : Nat} (h : Digit base c k) (t : Text) :
    readMoreDigits (isBased base) (c :: t) =
      (readMoreDigits (isBased base) t).map fun r => (c :: r.1, r.2) := by
  rw [readMoreDigits, if_pos h.isBased]
  · rintro rfl
    exact absurd rfl (h.ne (d := '_') rfl)
  · rintro d u rfl
    exact absurd rfl (h.ne (d := '_') rfl)

/-- An underscore in front of a digit does not count. -/
theorem readMoreDigits_spaced {base : Nat} {c : Char} {k : Nat} (h : Digit base c k) (t : Text) :
    readMoreDigits (isBased base) ('_' :: c :: t) =
      (readMoreDigits (isBased base) t).map fun r => (c :: r.1, r.2) := by
  rw [readMoreDigits, if_pos h.isBased]

/-- A text is taken as digits that stand for `n`, and then what stands behind it is looked at. -/
def TakesDigits (base : Nat) (w : Text) (n : Nat) : Prop :=
  ∃ ds, basedValue base ds = n ∧ (∀ c ∈ ds, isBased base c = true) ∧
    ∀ t, readDigits (isBased base) (w ++ t) =
      (readMoreDigits (isBased base) t).map fun r => (ds ++ r.1, r.2)

/-- One more digit is taken at the end, in whatever way it is written there. -/
theorem TakesDigits.concat {base : Nat} {w v : Text} {n k : Nat} {c : Char}
    (h : TakesDigits base w n) (hc : Digit base c k)
    (hv : ∀ t, readMoreDigits (isBased base) (v ++ t) =
      (readMoreDigits (isBased base) t).map fun r => (c :: r.1, r.2)) :
    TakesDigits base (w ++ v) (base * n + k) := by
  obtain ⟨ds, hvalue, hds, hread⟩ := h
  refine ⟨ds ++ [c], ?_, ?_, fun t => ?_⟩
  · rw [basedValue_concat, hvalue, hc.value?]
    rfl
  · simpa [or_imp, forall_and] using ⟨hds, hc.isBased⟩
  · rw [List.append_assoc, hread, hv, Option.map_map]
    simp [Function.comp_def]

/-- Digits are taken with their value, whether underscores stand between them or not. -/
theorem takesDigits {base : Nat} {w : Text} {n : Nat} (h : Digits base w n) :
    TakesDigits base w n := by
  induction h with
  | @one c k hc =>
    refine ⟨[c], ?_, by simpa using hc.isBased, fun t => ?_⟩
    · simp [basedValue, hc.value?]
    · rw [List.singleton_append, readDigits, if_pos hc.isBased]
      rfl
  | snoc _ hc ih => exact ih.concat hc (readMoreDigits_digit hc)
  | spaced _ hc ih => exact ih.concat hc (readMoreDigits_spaced hc)

/-- Nothing that follows a value goes on its digits. -/
theorem readMoreDigits_of_endsValue {base : Nat} {t : Text} (ht : EndsValue t) :
    readMoreDigits (isBased base) t = some ([], t) := by
  cases t with
  | nil => rfl
  | cons c t =>
    have hc := ht c rfl
    have hbased : isBased base c = false := ht.stops rfl c rfl
    rw [readMoreDigits, if_neg (by simp [hbased])]
    · rintro rfl
      exact absurd hc (by decide)
    · rintro d u rfl
      exact absurd hc (by decide)

/-- **Digits** are read up to the end of the value. -/
theorem readDigits_append {base : Nat} {w : Text} {n : Nat} (h : Digits base w n) {t : Text}
    (ht : EndsValue t) :
    ∃ ds, basedValue base ds = n ∧ (∀ c ∈ ds, isBased base c = true) ∧
      readDigits (isBased base) (w ++ t) = some (ds, t) := by
  obtain ⟨ds, hvalue, hds, hread⟩ := takesDigits h
  refine ⟨ds, hvalue, hds, ?_⟩
  rw [hread, readMoreDigits_of_endsValue ht, Option.map_some, List.append_nil]

/-! ### Numbers in decimal -/

/-- Decimal digits stand for the same number in both ways of counting. -/
theorem decimalValue_eq_basedValue {ds : Text} (h : ∀ c ∈ ds, isBased 10 c = true) :
    decimalValue ds = basedValue 10 ds := by
  have hdigit : ∀ c, isBased 10 c = true →
      Text.digitValue c = (Text.Hex.value? c).getD 0 := by
    intro c hc
    rw [isBased_ten, isDigit, Bool.and_eq_true, decide_eq_true_eq, decide_eq_true_eq] at hc
    rw [Text.Hex.value?, if_pos hc]
    rfl
  refine List.foldl_ext _ _ 0 fun n c hc => ?_
  rw [hdigit c (h c hc)]

/-- Digits begin with a digit. -/
theorem Digits.exists_cons {base : Nat} {w : Text} {n : Nat} (h : Digits base w n) :
    ∃ c u, w = c :: u ∧ isBased base c = true := by
  induction h with
  | one hc => exact ⟨_, [], rfl, hc.isBased⟩
  | snoc _ _ ih | spaced _ _ ih =>
    obtain ⟨c, u, rfl, hc⟩ := ih
    exact ⟨c, _, rfl, hc⟩

/-- Neither a dash nor a colon stands among digits. -/
theorem Digits.notMem {base : Nat} {w : Text} {n : Nat} (h : Digits base w n) {d : Char}
    (hd : d = '-' ∨ d = ':') : d ∉ w := by
  have hmark : Text.Hex.value? d = none := by rcases hd with rfl | rfl <;> rfl
  have hunderscore : d ≠ '_' := by rcases hd with rfl | rfl <;> decide
  induction h with
  | one hc => simpa using (hc.ne hmark).symm
  | snoc _ hc ih => simpa [not_or] using ⟨ih, (hc.ne hmark).symm⟩
  | spaced _ hc ih => simpa [not_or] using ⟨ih, hunderscore, (hc.ne hmark).symm⟩

theorem Whole.exists_cons {w : Text} {n : Nat} (h : Whole w n) :
    ∃ c u, w = c :: u ∧ isDigit c = true := by
  cases h with
  | zero => exact ⟨'0', [], rfl, rfl⟩
  | digits h _ =>
    obtain ⟨c, u, rfl, hc⟩ := h.exists_cons
    exact ⟨c, u, rfl, by rwa [← isBased_ten]⟩

theorem Whole.notMem {w : Text} {n : Nat} (h : Whole w n) {d : Char} (hd : d = '-' ∨ d = ':') :
    d ∉ w := by
  cases h with
  | zero => rcases hd with rfl | rfl <;> decide
  | digits h _ => exact h.notMem hd

/-- The digits of a number without leading zeros are read up to the end of the value. -/
theorem readWhole_append {w : Text} {n : Nat} (h : Whole w n) {t : Text} (ht : EndsValue t) :
    ∃ ds, decimalValue ds = n ∧ readWhole (w ++ t) = some (ds, t) := by
  cases h with
  | zero => exact ⟨['0'], rfl, rfl⟩
  | digits h hhead =>
    obtain ⟨ds, hvalue, hds, hread⟩ := readDigits_append h ht
    obtain ⟨c, u, rfl, -⟩ := h.exists_cons
    refine ⟨ds, by rw [decimalValue_eq_basedValue hds, hvalue], ?_⟩
    rw [funext isBased_ten] at hread
    rw [← hread, readWhole]
    intro v heq
    exact hhead (congrArg some (List.cons.inj heq).1)

/-- What the writer makes of a number is a number without leading zeros. -/
theorem whole_decimal (n : Nat) : Whole (decimal n) n := by
  have hdigit : ∀ k < 10, Digit 10 (Nat.digitChar k) k := by
    intro k hk
    exact ⟨Json.hexValue?_eq_some_iff.mp (Text.Hex.value?_digit ⟨k, by omega⟩), hk⟩
  have hdigits : Digits 10 (decimal n) n := by
    induction n using Nat.strongRecOn with
    | ind n ih =>
      rw [decimal, Nat.toDigits_eq_if (by decide)]
      split
      · rename_i hlt
        exact .one (hdigit n hlt)
      · have hlast := Digits.snoc (ih (n / 10) (by omega)) (hdigit (n % 10) (by omega))
        rwa [show 10 * (n / 10) + n % 10 = n by omega] at hlast
  rcases Nat.eq_zero_or_pos n with rfl | hpos
  · exact .zero
  · exact .digits hdigits (Text.head?_decimal_ne hpos)

/-- An integer in plain decimal is one of the integers. -/
theorem numeral_integerText {w : Text} {i : Int} (h : IntegerText w i) : Numeral w i := by
  cases h with
  | unsigned n => exact .unsigned (whole_decimal n)
  | plus n => exact .plus (whole_decimal n)
  | minus n => exact .minus (whole_decimal n)

/-! ### Numbers -/

theorem readFraction_of_endsValue {t : Text} (ht : EndsValue t) : readFraction t = some (none, t) := by
  unfold readFraction
  split
  · exact absurd (ht '.' rfl) (by decide)
  · rfl

theorem readExponent_of_endsValue {t : Text} (ht : EndsValue t) : readExponent t = some (none, t) := by
  unfold readExponent
  split
  · exact absurd (ht 'e' rfl) (by decide)
  · exact absurd (ht 'E' rfl) (by decide)
  · rfl

theorem readDecimal_append (negative : Bool) {w : Text} {n : Nat} (h : Whole w n) {t : Text}
    (ht : EndsValue t) :
    readDecimal negative (w ++ t) = (signed? negative n).map fun i => (.integer i, t) := by
  obtain ⟨ds, hvalue, hread⟩ := readWhole_append h ht
  rw [readDecimal]
  simp only [bind, Option.bind_some, hread, readFraction_of_endsValue ht,
    readExponent_of_endsValue ht, hvalue]
  cases signed? negative n <;> rfl

/-- A number begins with none of the characters that are no digits. -/
theorem Whole.append_ne_cons {w : Text} {n : Nat} (h : Whole w n) (t : Text) {c : Char}
    (hc : isDigit c = false) (u : Text) : w ++ t ≠ c :: u := by
  intro heq
  obtain ⟨d, v, rfl, hd⟩ := h.exists_cons
  rw [(List.cons.inj heq).1, hc] at hd
  cases hd

/-- Behind a single zero there is no mark of a base. -/
theorem Whole.append_ne_mark {w : Text} {n : Nat} (h : Whole w n) {t : Text} (ht : EndsValue t)
    {c : Char} (hc : c ∈ ['x', 'o', 'b']) (u : Text) : w ++ t ≠ '0' :: c :: u := by
  intro heq
  cases h with
  | zero =>
    have hrest : t = c :: u := (List.cons.inj heq).2
    have hend := ht c (by rw [hrest]; rfl)
    simp only [List.mem_cons, List.not_mem_nil, or_false] at hc
    rcases hc with rfl | rfl | rfl <;> exact absurd hend (by decide)
  | digits h hhead =>
    obtain ⟨d, v, rfl, -⟩ := h.exists_cons
    exact hhead (congrArg some (List.cons.inj heq).1)

/-- A text without the mark of a base is read as a sign and a decimal number. -/
theorem readNumber_of_takeSign {w v t : Text} {negative : Bool} {n : Nat} (h : Whole v n)
    (hmark : ∀ c ∈ ['x', 'o', 'b'], ∀ u, w ≠ '0' :: c :: u)
    (hsign : takeSign w = (negative, v ++ t)) :
    readNumber w = readDecimal negative (v ++ t) := by
  unfold readNumber
  split
  · exact absurd rfl (hmark 'x' (by decide) _)
  · exact absurd rfl (hmark 'o' (by decide) _)
  · exact absurd rfl (hmark 'b' (by decide) _)
  · rw [hsign]
    split
    · rename_i heq
      exact absurd (Prod.mk.inj heq).2 (h.append_ne_cons t (by decide) _)
    · rename_i heq
      exact absurd (Prod.mk.inj heq).2 (h.append_ne_cons t (by decide) _)
    · rename_i heq
      rw [← (Prod.mk.inj heq).1, ← (Prod.mk.inj heq).2]

theorem takeSign_append {w : Text} {n : Nat} (h : Whole w n) (t : Text) :
    takeSign (w ++ t) = (false, w ++ t) := by
  unfold takeSign
  split
  · rename_i heq
    exact absurd heq (h.append_ne_cons t (by decide) _)
  · rename_i heq
    exact absurd heq (h.append_ne_cons t (by decide) _)
  · rfl

/-! ### Integers -/

/-- The first character of an integer is a sign or a digit. -/
theorem Numeral.exists_cons {w : Text} {i : Int} (h : Numeral w i) :
    ∃ c u, w = c :: u ∧ (c = '+' ∨ c = '-' ∨ isDigit c = true) := by
  cases h with
  | unsigned h =>
    obtain ⟨c, u, rfl, hc⟩ := h.exists_cons
    exact ⟨c, u, rfl, Or.inr (Or.inr hc)⟩
  | plus _ => exact ⟨_, _, rfl, Or.inl rfl⟩
  | minus _ => exact ⟨_, _, rfl, Or.inr (Or.inl rfl)⟩
  | based _ _ => exact ⟨_, _, rfl, Or.inr (Or.inr rfl)⟩

/-- Behind the first character of an integer there is neither a dash nor a colon. -/
theorem Numeral.notMem_tail {w : Text} {i : Int} (h : Numeral w i) {d : Char}
    (hd : d = '-' ∨ d = ':') : d ∉ w.tail := by
  cases h with
  | unsigned h => exact fun hmem => h.notMem hd (List.mem_of_mem_tail hmem)
  | plus h | minus h => exact h.notMem hd
  | @based mark base w n hmark h =>
    have hmarks : ∀ m ∈ baseMarks, m.1 ≠ '-' ∧ m.1 ≠ ':' := by decide
    have hne : d ≠ mark := by
      rcases hd with rfl | rfl
      · exact (hmarks _ hmark).1.symm
      · exact (hmarks _ hmark).2.symm
    rw [List.tail_cons, List.mem_cons, not_or]
    exact ⟨hne, h.notMem hd⟩

/-- An integer is neither a date nor a time. -/
theorem passMoment_numeral {w : Text} {i : Int} (h : Numeral w i) {t : Text} (ht : EndsValue t) :
    passMoment (w ++ t) = none := by
  cases hpass : passMoment (w ++ t) with
  | none => rfl
  | some rest =>
    obtain ⟨ds, c, u, hds, hne, hc, heq⟩ := exists_digits_of_passMoment hpass
    obtain ⟨d, v, rfl, -⟩ := h.exists_cons
    obtain ⟨e, ds, rfl⟩ := List.exists_cons_of_ne_nil hne
    rw [List.cons_append, List.cons_append, List.cons.injEq] at heq
    obtain ⟨rfl, heq⟩ := heq
    have hends : c ∉ [' ', '\t', '#', '\n', '\r'] := by rcases hc with rfl | rfl <;> decide
    rcases List.append_eq_append_iff.mp heq with ⟨ds', rfl, rfl⟩ | ⟨v', rfl, hv'⟩
    · -- the digits of a moment go on behind the integer
      cases ds' with
      | nil => exact absurd (ht c rfl) hends
      | cons e ds' =>
        have he := hds e (by simp)
        rw [ht.stops (p := isDigit) rfl e rfl] at he
        cases he
    · -- the dash or the colon stands in the integer or directly behind it
      cases v' with
      | nil =>
        rw [List.nil_append] at hv'
        exact absurd (ht c (by rw [← hv']; rfl)) hends
      | cons e v' =>
        rw [(List.cons.inj hv').1] at hc
        exact absurd (by simp) (h.notMem_tail hc)

/-- **An integer** that fits 64 bits with a sign is read up to the end of the value. -/
theorem readNumber_numeral {w : Text} {n : Int64} (h : Numeral w n.toInt) {t : Text}
    (ht : EndsValue t) : readNumber (w ++ t) = some (.integer n.toInt, t) := by
  have hlo := n.le_toInt
  have hhi := n.toInt_lt
  generalize n.toInt = i at h hlo hhi
  have hpow : Nat.pow 2 63 = 2 ^ 63 := rfl
  cases h with
  | unsigned h =>
    rw [readNumber_of_takeSign h (fun c hc => h.append_ne_mark ht hc) (takeSign_append h t),
      readDecimal_append false h ht, signed?]
    rw [if_neg (by decide), if_pos (by omega)]
    rfl
  | plus h =>
    rw [List.cons_append, readNumber_of_takeSign h
      (fun c _ u heq => absurd (List.cons.inj heq).1 (by decide)) rfl,
      readDecimal_append false h ht, signed?]
    rw [if_neg (by decide), if_pos (by omega)]
    rfl
  | minus h =>
    rw [List.cons_append, readNumber_of_takeSign h
      (fun c _ u heq => absurd (List.cons.inj heq).1 (by decide)) rfl,
      readDecimal_append true h ht, signed?]
    rw [if_pos rfl, if_pos (by omega)]
    rfl
  | @based mark base w n hmark h =>
    obtain ⟨ds, hvalue, -, hread⟩ := readDigits_append h ht
    have hbased : readBased base (w ++ t) = some (.integer n, t) := by
      rw [readBased]
      simp only [bind, Option.bind_some, hread, hvalue, signed?]
      rw [if_neg (by decide), if_pos (by omega)]
      rfl
    simp only [baseMarks, List.mem_cons, List.not_mem_nil, or_false, Prod.mk.injEq] at hmark
    rcases hmark with ⟨rfl, rfl⟩ | ⟨rfl, rfl⟩ | ⟨rfl, rfl⟩ <;> exact hbased

end FormRules.Toml
