import FormRules.Json.Quoted
import FormRules.Proofs.Json.Grammar

/-!
# Reading strings by the grammar

Each reader of a part of a string succeeds on exactly the texts that begin with a written form of
that part, and then answers with what the form stands for and with the rest of the text. A part of a
string carries its own end, so the rest is free: no statement asks what follows.
-/

namespace FormRules.Json

open Outcome

/-! ### Digits and code units -/

/-- Digits are ASCII characters. -/
theorem lt_of_hexValue? {c : Char} {n : Nat} (h : Text.Hex.value? c = some n) : c.toNat < 0x67 := by
  have hle : c ≤ 'f' := by
    unfold Text.Hex.value? at h
    split at h
    · rename_i hc
      exact Char.le_trans hc.2 (by decide)
    · split at h
      · rename_i hc
        exact hc.2
      · split at h
        · rename_i hc
          exact Char.le_trans hc.2 (by decide)
        · cases h
  exact Nat.lt_succ_of_le hle

/-- Digits are read by their value. -/
theorem hexValue?_eq_some_iff {c : Char} {n : Nat} : Text.Hex.value? c = some n ↔ HexDigit c n := by
  constructor
  · intro h
    have hall : ∀ k < 0x67, ∀ n ∈ Text.Hex.value? (Char.ofNat k),
        "0123456789abcdef".toList[n]? = some (Char.ofNat k) ∨
          "0123456789ABCDEF".toList[n]? = some (Char.ofNat k) := by decide
    have := hall c.toNat (lt_of_hexValue? h) n
    rw [Char.ofNat_toNat] at this
    exact this h
  · rintro (h | h)
    · have hall : ∀ i < 16, "0123456789abcdef".toList[i]?.bind Text.Hex.value? = some i := by decide
      have hn := hall n (List.getElem?_eq_some_iff.mp h).1
      rwa [h] at hn
    · have hall : ∀ i < 16, "0123456789ABCDEF".toList[i]?.bind Text.Hex.value? = some i := by decide
      have hn := hall n (List.getElem?_eq_some_iff.mp h).1
      rwa [h] at hn

theorem hexNumber?_eq_some_iff {a b c d : Char} {n : Nat} :
    Text.Hex.number? [a, b, c, d] = some n ↔ CodeUnit [a, b, c, d] n := by
  have hnum : Text.Hex.number? [a, b, c, d] =
      (Text.Hex.value? a).bind fun i => (Text.Hex.value? b).bind fun j =>
        (Text.Hex.value? c).bind fun k => (Text.Hex.value? d).map fun l =>
          16 * (16 * (16 * i + j) + k) + l := by
    simp only [Text.Hex.number?, List.foldl_cons, List.foldl_nil, Option.bind_some]
    cases Text.Hex.value? a <;> cases Text.Hex.value? b <;> cases Text.Hex.value? c <;> simp
  rw [hnum]
  constructor
  · intro h
    obtain ⟨i, hi, h⟩ := Option.bind_eq_some_iff.mp h
    obtain ⟨j, hj, h⟩ := Option.bind_eq_some_iff.mp h
    obtain ⟨k, hk, h⟩ := Option.bind_eq_some_iff.mp h
    obtain ⟨l, hl, rfl⟩ := Option.map_eq_some_iff.mp h
    rw [hexValue?_eq_some_iff] at hi hj hk hl
    exact CodeUnit.digits hi hj hk hl
  · intro h
    cases h with
    | digits hi hj hk hl =>
      rw [← hexValue?_eq_some_iff] at hi hj hk hl
      simp [hi, hj, hk, hl]

theorem readHex_eq_ok_iff {t rest : Text} {n : Nat} :
    readHex t = .ok (n, rest) ↔ ∃ w, CodeUnit w n ∧ t = w ++ rest := by
  constructor
  · intro h
    unfold readHex at h
    split at h
    · rename_i a b c d t
      split at h
      · rename_i m hm
        cases h
        exact ⟨[a, b, c, d], hexNumber?_eq_some_iff.mp hm, rfl⟩
      · cases h
    · cases h
  · rintro ⟨w, hw, rfl⟩
    have hw' := hw
    cases hw with
    | digits _ _ _ _ =>
      rw [← hexNumber?_eq_some_iff] at hw'
      simp only [List.cons_append, List.nil_append, readHex, hw']

/-! ### Escapes -/

theorem isLeading_iff (n : Nat) : isLeading n = true ↔ Leading n := by
  simp [isLeading, Leading]

theorem isTrailing_iff (n : Nat) : isTrailing n = true ↔ Trailing n := by
  simp [isTrailing, Trailing]

/-- The two kinds of halves exclude each other. -/
theorem Leading.not_trailing {n : Nat} (h : Leading n) : ¬ Trailing n := by
  unfold Leading at h
  unfold Trailing
  omega

/-- Behind `\u` every written form of a character is read, and nothing else. -/
theorem readUnicode_eq_ok_iff {t rest : Text} {c : Char} :
    readUnicode t = .ok (c, rest) ↔ ∃ w, UnicodeEscape w c ∧ t = w ++ rest := by
  rw [readUnicode_eq]
  constructor
  · intro h
    rw [bind_eq_ok_iff] at h
    obtain ⟨⟨n, t₁⟩, h₁, h⟩ := h
    obtain ⟨w, hw, rfl⟩ := readHex_eq_ok_iff.mp h₁
    simp only at h
    by_cases ht : isTrailing n = true
    · rw [if_pos ht] at h
      cases h
    rw [if_neg ht] at h
    by_cases hl : isLeading n = true
    · rw [if_pos hl] at h
      simp only [bind_eq_ok_iff, pass_eq_ok_iff] at h
      obtain ⟨t₂, rfl, t₃, rfl, ⟨m, t₄⟩, h₄, h⟩ := h
      obtain ⟨w', hw', rfl⟩ := readHex_eq_ok_iff.mp h₄
      simp only at h
      by_cases hm : isTrailing m = true
      · rw [if_pos hm, Except.ok.injEq, Prod.mk.injEq] at h
        obtain ⟨rfl, rfl⟩ := h
        exact ⟨w ++ '\\' :: 'u' :: w',
          .pair hw ((isLeading_iff n).mp hl) hw' ((isTrailing_iff m).mp hm), by simp⟩
      · rw [if_neg hm] at h
        cases h
    · rw [if_neg hl] at h
      cases h
      rw [isLeading_iff] at hl
      rw [isTrailing_iff] at ht
      exact ⟨w, .single hw hl ht, rfl⟩
  · rintro ⟨w, hw, rfl⟩
    cases hw with
    | single hw hl ht =>
      rw [← isLeading_iff] at hl
      rw [← isTrailing_iff] at ht
      refine bind_eq_ok_iff.mpr ⟨_, readHex_eq_ok_iff.mpr ⟨w, hw, rfl⟩, ?_⟩
      rw [if_neg ht, if_neg hl]
    | pair hw hl hw' hm =>
      have ht := hl.not_trailing
      rw [← isLeading_iff] at hl
      rw [← isTrailing_iff] at ht hm
      rw [List.append_assoc]
      refine bind_eq_ok_iff.mpr ⟨_, readHex_eq_ok_iff.mpr ⟨_, hw, rfl⟩, ?_⟩
      rw [if_neg ht, if_pos hl]
      refine bind_eq_ok_iff.mpr ⟨_, pass_eq_ok_iff.mpr rfl, ?_⟩
      refine bind_eq_ok_iff.mpr ⟨_, pass_eq_ok_iff.mpr rfl, ?_⟩
      refine bind_eq_ok_iff.mpr ⟨_, readHex_eq_ok_iff.mpr ⟨_, hw', rfl⟩, ?_⟩
      rw [if_pos hm]

/-- Behind a backslash every written form of a character is read, and nothing else. -/
theorem readEscape_eq_ok_iff {t rest : Text} {c : Char} :
    readEscape t = .ok (c, rest) ↔ ∃ w, Escape w c ∧ t = w ++ rest := by
  constructor
  · intro h
    unfold readEscape at h
    split at h
    case h_10 t =>
      obtain ⟨w, hw, rfl⟩ := readUnicode_eq_ok_iff.mp h
      exact ⟨'u' :: w, .unicode hw, rfl⟩
    case h_1 => cases h
    case h_11 => cases h
    all_goals
      cases h
      exact ⟨[_], .short (by decide), rfl⟩
  · rintro ⟨w, hw, rfl⟩
    cases hw with
    | short h =>
      simp only [shortEscapes, List.mem_cons, List.not_mem_nil, or_false, Prod.mk.injEq] at h
      rcases h with ⟨rfl, rfl⟩ | ⟨rfl, rfl⟩ | ⟨rfl, rfl⟩ | ⟨rfl, rfl⟩ | ⟨rfl, rfl⟩ | ⟨rfl, rfl⟩ |
        ⟨rfl, rfl⟩ | ⟨rfl, rfl⟩ <;> rfl
    | unicode h => exact readUnicode_eq_ok_iff.mpr ⟨_, h, rfl⟩

/-! ### Strings -/

/-- A written form of a character at the front is read as that character, before what follows. -/
theorem readString_append {w : Text} {c : Char} (h : Spelling w c) (t : Text) :
    readString (w ++ t) = (readString t).map fun r => (c :: r.1, r.2) := by
  cases h with
  | plain hq hb hc =>
    rw [List.singleton_append, readString]
    · rw [if_neg (by omega)]
    · exact hq
    · exact hb
  | @escape w _ h =>
    have hread : readEscape (w ++ t) = .ok (c, t) := readEscape_eq_ok_iff.mpr ⟨w, h, rfl⟩
    rw [List.cons_append, readString]
    split
    · rename_i e he
      rw [hread] at he
      cases he
    · rename_i c' t' he
      rw [hread] at he
      cases he
      rfl

/-- Behind an opening quote every written form of a text with a closing quote is read, and nothing
else. -/
theorem readString_eq_ok_iff {t s rest : Text} :
    readString t = .ok (s, rest) ↔ ∃ w, Content w s ∧ t = w ++ '"' :: rest := by
  constructor
  · intro h
    fun_induction readString t generalizing s with
    | case1 => cases h
    | case2 t =>
      cases h
      exact ⟨[], .nil, rfl⟩
    | case3 => cases h
    | case4 t c t' he _ ih =>
      obtain ⟨w, hw, rfl⟩ := readEscape_eq_ok_iff.mp he
      rw [map_eq_ok_iff] at h
      obtain ⟨⟨s', rest'⟩, hr, h⟩ := h
      cases h
      obtain ⟨u, hu, rfl⟩ := ih hr
      exact ⟨'\\' :: w ++ u, .cons (.escape hw) hu, by simp⟩
    | case5 => cases h
    | case6 c t hq hb hc ih =>
      rw [map_eq_ok_iff] at h
      obtain ⟨⟨s', rest'⟩, hr, h⟩ := h
      cases h
      obtain ⟨u, hu, rfl⟩ := ih hr
      exact ⟨[c] ++ u, .cons (.plain hq hb (by omega)) hu, rfl⟩
  · rintro ⟨w, hw, rfl⟩
    induction hw with
    | nil => rw [List.nil_append, readString]
    | cons hw _ ih =>
      rw [List.append_assoc, readString_append hw, ih]
      rfl

end FormRules.Json
