import FormRules.Proofs.Json.Strings
import FormRules.Proofs.Toml.Blank
import FormRules.Toml.Quoted

/-!
# Reading strings of TOML by the grammar

Every written form of a string on one line is read as the text that it stands for. A string carries
its own end, so what follows is free, with one exception: a quote right behind an empty string makes
the opening of a string over several lines (`readQuoted_append`).
-/

namespace FormRules.Toml

/-! ### Escapes -/

theorem number?_append_singleton (w : Text) (c : Char) :
    Text.Hex.number? (w ++ [c]) =
      (Text.Hex.number? w).bind fun n => (Text.Hex.value? c).map (16 * n + ·) := by
  rw [Text.Hex.number?, List.foldl_append, List.foldl_cons, List.foldl_nil]
  rfl

theorem number?_of_hexNumber {w : Text} {n : Nat} (h : HexNumber w n) :
    Text.Hex.number? w = some n := by
  induction h with
  | nil => rfl
  | snoc _ hc ih =>
    rw [number?_append_singleton, ih, Json.hexValue?_eq_some_iff.mpr hc]
    rfl

theorem scalar?_toNat (c : Char) : scalar? c.toNat = some c := by
  have hvalid : c.toNat.isValidChar := c.valid
  rw [scalar?, if_pos hvalid, Char.ofNat_toNat]

/-- The number of a character is read as the character, from exactly its digits. -/
theorem readScalar_append {w : Text} {c : Char} (h : HexNumber w c.toNat) (t : Text) :
    readScalar w.length (w ++ t) = some (c, t) := by
  have hlength : ¬ (w ++ t).length < w.length := by
    rw [List.length_append]
    omega
  rw [readScalar, if_neg hlength, List.take_left, List.drop_left, number?_of_hexNumber h]
  simp only [bind, Option.bind_some, scalar?_toNat]
  rfl

theorem readEscape_append {w : Text} {c : Char} (h : Escape w c) (t : Text) :
    readEscape (w ++ t) = some (c, t) := by
  cases h with
  | short h =>
    simp only [shortEscapes, List.mem_cons, List.not_mem_nil, or_false, Prod.mk.injEq] at h
    rcases h with ⟨rfl, rfl⟩ | ⟨rfl, rfl⟩ | ⟨rfl, rfl⟩ | ⟨rfl, rfl⟩ | ⟨rfl, rfl⟩ | ⟨rfl, rfl⟩ |
      ⟨rfl, rfl⟩ <;> rfl
  | four h hlength =>
    have hread := readScalar_append h t
    rwa [hlength] at hread
  | eight h hlength =>
    have hread := readScalar_append h t
    rwa [hlength] at hread

/-! ### The two kinds of string -/

/-- A written form of a character at the front is read as that character, before what follows. -/
theorem readBasic_spelling {w : Text} {c : Char} (h : Spelling w c) (t : Text) :
    readBasic (w ++ t) = (readBasic t).map fun r => (c :: r.1, r.2) := by
  cases h with
  | plain hc hq hb =>
    rw [List.singleton_append, readBasic]
    · rw [if_pos ((isPlain_iff c).mpr hc)]
    · exact hq
    · exact hb
  | @escape w _ h =>
    have hread := readEscape_append h t
    rw [List.cons_append, readBasic]
    split
    · rename_i he
      rw [hread] at he
      cases he
    · rename_i c' t' he
      rw [hread] at he
      cases he
      rfl

theorem readBasic_append {w s : Text} (h : Content w s) (t : Text) :
    readBasic (w ++ '"' :: t) = some (s, t) := by
  induction h with
  | nil => rw [List.nil_append, readBasic]
  | cons hw _ ih =>
    rw [List.append_assoc, readBasic_spelling hw, ih]
    rfl

theorem readLiteral_append {s : Text} (h : PlainText s) (hq : '\'' ∉ s) (t : Text) :
    readLiteral (s ++ '\'' :: t) = some (s, t) := by
  induction s with
  | nil => rfl
  | cons c s ih =>
    rw [List.mem_cons, not_or] at hq
    have hc : isPlain c = true := (isPlain_iff c).mpr (h c List.mem_cons_self)
    rw [List.cons_append, readLiteral, if_pos hc,
      ih (fun c hc => h c (List.mem_cons_of_mem _ hc)) hq.2]
    · rfl
    · exact Ne.symm hq.1

/-! ### Strings as values -/

/-- A text that does not begin with a quote of either kind. -/
def NoQuote (t : Text) : Prop := ∀ c ∈ t.head?, c ≠ '"' ∧ c ≠ '\''

theorem readQuoted_basic {t : Text} (h : ∀ u, t ≠ '"' :: '"' :: u) :
    readQuoted ('"' :: t) = readBasic t := by
  unfold readQuoted
  split
  · rename_i u heq
    exact absurd (List.cons.inj heq).2 (h u)
  · rename_i heq
    rw [(List.cons.inj heq).2]
  · rename_i heq
    cases heq
  · rename_i heq
    cases heq
  · rename_i hne _ _
    exact absurd rfl (hne t)

theorem readQuoted_literal {t : Text} (h : ∀ u, t ≠ '\'' :: '\'' :: u) :
    readQuoted ('\'' :: t) = readLiteral t := by
  unfold readQuoted
  split
  · rename_i heq
    cases heq
  · rename_i heq
    cases heq
  · rename_i u heq
    exact absurd (List.cons.inj heq).2 (h u)
  · rename_i heq
    rw [(List.cons.inj heq).2]
  · rename_i _ hne
    exact absurd rfl (hne t)

/-- A written form of a character does not begin with a quote. -/
theorem exists_cons_of_spelling {w : Text} {c : Char} (h : Spelling w c) :
    ∃ d u, w = d :: u ∧ d ≠ '"' := by
  cases h with
  | plain _ hq _ => exact ⟨c, [], rfl, hq⟩
  | escape _ => exact ⟨_, _, rfl, by decide⟩

/-- **A string on one line** is read as the text that it stands for, if no quote follows. -/
theorem readQuoted_append {w s : Text} (h : StringText w s) {t : Text} (ht : NoQuote t) :
    readQuoted (w ++ t) = some (s, t) := by
  cases h with
  | @basic w _ h =>
    have hopen : ∀ u, w ++ '"' :: t ≠ '"' :: '"' :: u := by
      rintro u heq
      cases h with
      | nil => exact (ht '"' (by rw [(List.cons.inj heq).2]; rfl)).1 rfl
      | cons hw _ =>
        obtain ⟨d, v, rfl, hd⟩ := exists_cons_of_spelling hw
        exact hd (List.cons.inj heq).1
    rw [List.cons_append, List.append_assoc, List.singleton_append, readQuoted_basic hopen]
    exact readBasic_append h t
  | literal h hq =>
    have hopen : ∀ u, s ++ '\'' :: t ≠ '\'' :: '\'' :: u := by
      rintro u heq
      cases s with
      | nil => exact (ht '\'' (by rw [(List.cons.inj heq).2]; rfl)).2 rfl
      | cons c s => exact hq (by rw [(List.cons.inj heq).1]; exact List.mem_cons_self)
    rw [List.cons_append, List.append_assoc, List.singleton_append, readQuoted_literal hopen]
    exact readLiteral_append h hq t

end FormRules.Toml
