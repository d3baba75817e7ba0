import FormRules.Proofs.Toml.Integers
import FormRules.Proofs.Toml.Multiline
import FormRules.Toml.Document

/-!
# Reading lines of TOML by the grammar

Each part of a line is read as what it stands for, up to what follows it on the line: a key up to the
blanks before the equals sign (`readKey_append`), a value up to the blanks, the comment or the line end
behind it (`readValue_append`). So a line is read as its member before whatever lines follow
(`readStatements_line`).
-/

namespace FormRules.Toml

/-! ### Keys -/

theorem isBareChar_iff (c : Char) :
    isBareChar c = true ↔ c.isAlphanum = true ∨ c = '_' ∨ c = '-' := by
  simp [isBareChar, or_assoc]

/-- The first character of a key begins no blank part of a line and no header, and it is no byte order
mark. -/
theorem exists_cons_of_keyText {w name : Text} (h : KeyText w name) :
    ∃ c u, w = c :: u ∧ isBlank c = false ∧ c ∉ ['#', '\n', '\r', '[', '\ufeff'] := by
  cases h with
  | bare hbare hne =>
    obtain ⟨c, u, rfl⟩ := List.exists_cons_of_ne_nil hne
    have hc := (isBareChar_iff c).mpr (hbare c List.mem_cons_self)
    refine ⟨c, u, rfl, ?_, fun hmem => ?_⟩
    · rw [← Bool.not_eq_true, isBlank_iff]
      rintro (rfl | rfl) <;> exact absurd hc (by decide)
    · have hmarks : ['#', '\n', '\r', '[', '\ufeff'].any isBareChar = false := by decide
      exact List.any_eq_false.mp hmarks c hmem hc
  | quoted h =>
    cases h with
    | basic _ => exact ⟨_, _, rfl, by decide, by decide⟩
    | literal _ _ => exact ⟨_, _, rfl, by decide, by decide⟩

theorem stops_keyText_append {w name : Text} (h : KeyText w name) (t : Text) :
    Text.Stops isBlank (w ++ t) := by
  obtain ⟨c, u, rfl, hc, -⟩ := exists_cons_of_keyText h
  exact Text.stops_cons hc (u ++ t)

theorem readSimpleKey_append {w name : Text} (h : KeyText w name) {t : Text}
    (ht : Text.Stops isBareChar t) : readSimpleKey (w ++ t) = some (name, t) := by
  cases h with
  | bare hbare hne =>
    have hbare : ∀ c ∈ w, isBareChar c = true := fun c hc => (isBareChar_iff c).mpr (hbare c hc)
    obtain ⟨d, v, rfl⟩ := List.exists_cons_of_ne_nil hne
    have hd := hbare d List.mem_cons_self
    unfold readSimpleKey
    split
    · rename_i heq
      rw [(List.cons.inj heq).1] at hd
      exact absurd hd (by decide)
    · rename_i heq
      rw [(List.cons.inj heq).1] at hd
      exact absurd hd (by decide)
    · rw [Text.takeWhile_append hbare ht, Text.dropWhile_append hbare ht]
  | quoted h =>
    cases h with
    | basic h =>
      rw [List.cons_append, List.append_assoc]
      exact readBasic_append h t
    | literal h hq =>
      rw [List.cons_append, List.append_assoc]
      exact readLiteral_append h hq t

/-- A key of one part is read up to the equals sign. -/
theorem readKey_append {w name : Text} (h : KeyText w name) {b : Text} (hb : Blanks b) (t : Text) :
    readKey (w ++ (b ++ '=' :: t)) = some ([name], '=' :: t) := by
  have hbare : Text.Stops isBareChar (b ++ '=' :: t) := by
    cases b with
    | nil => exact Text.stops_cons rfl t
    | cons d b =>
      rcases hb d List.mem_cons_self with rfl | rfl <;> exact Text.stops_cons rfl (b ++ '=' :: t)
  have hequals : skipBlanks (b ++ '=' :: t) = '=' :: t :=
    skipBlanks_append hb (Text.stops_cons rfl t)
  have hparts : readParts (w ++ (b ++ '=' :: t)) = some ([name], '=' :: t) := by
    rw [readParts, skipBlanks_of_stops (stops_keyText_append h _),
      readSimpleKey_append h hbare]
    simp only [hequals]
    rfl
  rw [readKey, hparts]
  rfl

/-! ### Values -/

theorem EndsValue.noQuote {t : Text} (h : EndsValue t) : NoQuote t := by
  intro c hc
  have hends := h c hc
  constructor
  · rintro rfl
    exact absurd hends (by decide)
  · rintro rfl
    exact absurd hends (by decide)

theorem readScalarValue_numeral {w : Text} {n : Int64} (h : Numeral w n.toInt) {t : Text}
    (ht : EndsValue t) : readScalarValue (w ++ t) = some (.integer n.toInt, t) := by
  have hmoment := passMoment_numeral h ht
  have hnumber := readNumber_numeral h ht
  obtain ⟨c, u, rfl, hc⟩ := h.exists_cons
  unfold readScalarValue
  split
  case h_5 =>
    simp only [hmoment, hnumber]
  all_goals
    rename_i heq
    rw [(List.cons.inj heq).1] at hc
    exact absurd hc (by decide)

/-- A text that begins with a quote is read as a string. -/
theorem readScalarValue_quoted {c : Char} (hc : c = '"' ∨ c = '\'') {w t s : Text}
    (h : readQuoted (c :: w) = some (s, t)) : readScalarValue (c :: w) = some (.string s, t) := by
  rcases hc with rfl | rfl
  all_goals
    show (readQuoted _).map _ = _
    rw [h]
    rfl

theorem StringText.exists_cons {w s : Text} (h : StringText w s) :
    ∃ c u, w = c :: u ∧ (c = '"' ∨ c = '\'') := by
  cases h with
  | basic _ => exact ⟨_, _, rfl, Or.inl rfl⟩
  | literal _ _ => exact ⟨_, _, rfl, Or.inr rfl⟩

theorem LinesString.exists_cons {quote : Char} {Piece : Text → Text → Text → Prop} {w s : Text}
    (h : LinesString quote Piece w s) : ∃ u, w = quote :: u := by
  cases h with
  | here _ _ | below _ _ => exact ⟨_, rfl⟩

/-- **A value without brackets** is read up to the blanks, the comment or the line end behind it. -/
theorem readScalarValue_append {w : Text} {v : Scalar} (h : ValueForm w v) {t : Text}
    (ht : EndsValue t) : readScalarValue (w ++ t) = some (v.node, t) := by
  cases h with
  | flat h =>
    cases h with
    | string h =>
      have hread := readQuoted_append h ht.noQuote
      obtain ⟨c, u, rfl, hc⟩ := h.exists_cons
      exact readScalarValue_quoted hc hread
    | boolean b => cases b <;> rfl
    | integer h => exact readScalarValue_numeral (numeral_integerText h) ht
  | integer h => exact readScalarValue_numeral h ht
  | basicLines h =>
    have hread := readQuoted_basicLines h (fun c hc => by simpa using (ht.noQuote c hc).1)
    obtain ⟨u, rfl⟩ := h.exists_cons
    exact readScalarValue_quoted (Or.inl rfl) hread
  | literalLines h =>
    have hread := readQuoted_literalLines h (fun c hc => by simpa using (ht.noQuote c hc).2)
    obtain ⟨u, rfl⟩ := h.exists_cons
    exact readScalarValue_quoted (Or.inr rfl) hread

/-- A character that begins a value without brackets: neither a blank nor an opening bracket or
brace. -/
def BeginsValue (c : Char) : Prop := isBlank c = false ∧ c ≠ '[' ∧ c ≠ '{'

theorem beginsValue_quote {c : Char} (hc : c = '"' ∨ c = '\'') : BeginsValue c := by
  rcases hc with rfl | rfl <;> exact ⟨rfl, by decide, by decide⟩

theorem Numeral.beginsValue {w : Text} {n : Int} (h : Numeral w n) :
    ∃ c u, w = c :: u ∧ BeginsValue c := by
  obtain ⟨c, u, rfl, hc⟩ := h.exists_cons
  refine ⟨c, u, rfl, ?_, ?_, ?_⟩
  · rw [← Bool.not_eq_true, isBlank_iff]
    rintro (rfl | rfl) <;> exact absurd hc (by decide)
  · rintro rfl
    exact absurd hc (by decide)
  · rintro rfl
    exact absurd hc (by decide)

/-- The first character of a value begins no blanks, no array and no table between braces. -/
theorem ValueForm.exists_cons {w : Text} {v : Scalar} (h : ValueForm w v) :
    ∃ c u, w = c :: u ∧ BeginsValue c := by
  cases h with
  | flat h =>
    cases h with
    | string h =>
      obtain ⟨c, u, rfl, hc⟩ := h.exists_cons
      exact ⟨c, u, rfl, beginsValue_quote hc⟩
    | boolean b => cases b <;> exact ⟨_, _, rfl, rfl, by decide, by decide⟩
    | integer h => exact (numeral_integerText h).beginsValue
  | integer h => exact h.beginsValue
  | basicLines h =>
    obtain ⟨u, rfl⟩ := h.exists_cons
    exact ⟨_, u, rfl, beginsValue_quote (Or.inl rfl)⟩
  | literalLines h =>
    obtain ⟨u, rfl⟩ := h.exists_cons
    exact ⟨_, u, rfl, beginsValue_quote (Or.inr rfl)⟩

theorem readValue_append {w : Text} {v : Scalar} (h : ValueForm w v) {t : Text} (ht : EndsValue t) :
    readValue depthBound (w ++ t) = some (v.node, t) := by
  have hread := readScalarValue_append h ht
  obtain ⟨c, u, rfl, -, hlist, htable⟩ := h.exists_cons
  rw [depthBound, readValue]
  · exact hread
  · exact fun t' heq => hlist (List.cons.inj heq).1
  · exact fun t' heq => htable (List.cons.inj heq).1

/-! ### Lines -/

/-- The statement that a member makes. -/
def statement (m : FlatMember) : Statement := .pair ⟨[], m.1, m.2.node⟩

/-- A key with a value is read up to the rest of its line. -/
theorem readPair_append {key value b₁ b₂ t : Text} {m : FlatMember} (hkey : KeyText key m.1)
    (hb₁ : Blanks b₁) (hb₂ : Blanks b₂) (hvalue : ValueForm value m.2) (ht : EndsValue t) :
    readPair (readValue depthBound) (key ++ (b₁ ++ '=' :: (b₂ ++ (value ++ t)))) =
      some (⟨[], m.1, m.2.node⟩, skipBlanks t) := by
  have hblank : Text.Stops isBlank (value ++ t) := by
    obtain ⟨c, u, rfl, hc, -⟩ := hvalue.exists_cons
    exact Text.stops_cons hc (u ++ t)
  rw [readPair]
  simp only [bind, readKey_append hkey hb₁, Option.bind_some, passChar_eq_some_iff.mpr rfl,
    skipBlanks_append hb₂ hblank, readValue_append hvalue ht]
  rfl

/-- A line that begins with no comment, no line end and no header is a pair. -/
theorem readLine_cons {c : Char} (hc : c ∉ ['#', '\n', '\r', '[', '\ufeff']) (t : Text) :
    readLine (c :: t) = (readPair (readValue depthBound) (c :: t)).bind fun r =>
      (passLineEnd r.2).map fun t => (some (.pair r.1), t) := by
  generalize hw : c :: t = w
  unfold readLine
  split
  case h_6 =>
    cases readPair (readValue depthBound) w with
    | none => rfl
    | some r =>
      obtain ⟨p, t'⟩ := r
      simp only [bind, Option.bind_some]
      cases passLineEnd t' <;> rfl
  all_goals
    rw [(List.cons.inj hw).1] at hc
    exact absurd hc (by decide)

/-- A line that holds no member is passed without a statement. -/
theorem readLine_idle {k t u : Text} (hk : Comment k) (ht : LineTail t u) (hne : k ++ t ≠ []) :
    readLine (k ++ t) = some (none, u) := by
  have hend : passLineEnd (k ++ t) = some u := passLineEnd_append .nil hk ht
  have hmap : (passLineEnd (k ++ t)).map (fun t => ((none : Option Statement), t)) =
      some (none, u) := by
    rw [hend]
    rfl
  cases hk with
  | some _ => exact hmap
  | none =>
    cases ht with
    | stop => exact absurd rfl hne
    | more he => rcases he with rfl | rfl <;> exact hmap

/-- A text of blanks has no statements. -/
theorem readStatements_of_skipBlanks {t : Text} (h : skipBlanks t = []) :
    readStatements t = some [] := by
  rw [readStatements]
  split
  · rfl
  · rename_i hne
    exact absurd h hne

/-- The statement of a line stands before those of the lines behind it. -/
theorem readStatements_of_readLine {b t u : Text} {st : Option Statement} (hb : Blanks b)
    (hblank : Text.Stops isBlank t) (hne : t ≠ []) (hline : readLine t = some (st, u))
    (hlt : u.length < t.length) :
    readStatements (b ++ t) = (readStatements u).map (st.toList ++ ·) := by
  obtain ⟨c, v, rfl⟩ := List.exists_cons_of_ne_nil hne
  have hlt' : u.length < (b ++ c :: v).length := by
    rw [List.length_append]
    omega
  rw [readStatements, skipBlanks_append hb hblank]
  simp only [hline, if_pos hlt']

/-- A line that holds a member is read as the statement that the member makes. -/
theorem readLine_pair {key value b₁ b₂ b₃ k t u : Text} {m : FlatMember} (hkey : KeyText key m.1)
    (hb₁ : Blanks b₁) (hb₂ : Blanks b₂) (hvalue : ValueForm value m.2) (hb₃ : Blanks b₃)
    (hk : Comment k) (ht : LineTail t u) :
    readLine (key ++ (b₁ ++ '=' :: (b₂ ++ (value ++ (b₃ ++ (k ++ t)))))) =
      some (some (statement m), u) := by
  have hpair := readPair_append hkey hb₁ hb₂ hvalue (endsValue_append hb₃ hk ht)
  have hend : passLineEnd (k ++ t) = some u := passLineEnd_append .nil hk ht
  rw [skipBlanks_append hb₃ (stops_comment_append hk ht)] at hpair
  obtain ⟨c, v, rfl, -, hc⟩ := exists_cons_of_keyText hkey
  rw [List.cons_append] at hpair ⊢
  rw [readLine_cons hc, hpair, Option.bind_some, hend]
  rfl

/-- **A line** is read as its member, before the lines behind it. -/
theorem readStatements_line {w t u : Text} {m : Option FlatMember} (h : Declaration w m)
    (ht : LineTail t u) :
    readStatements (w ++ t) = (readStatements u).map ((m.map statement).toList ++ ·) := by
  cases h with
  | @idle b k hb hk =>
    rw [List.append_assoc]
    by_cases hne : k ++ t = []
    · obtain ⟨-, rfl⟩ := List.append_eq_nil_iff.mp hne
      have hskip : skipBlanks (b ++ []) = [] := skipBlanks_append hb fun c hc => by cases hc
      rw [ht.eq_nil, hne, readStatements_of_skipBlanks hskip, readStatements_of_skipBlanks rfl]
      rfl
    · exact readStatements_of_readLine hb (stops_comment_append hk ht) hne (readLine_idle hk ht hne)
        (ht.length_lt hne)
  | @pair b₁ key b₂ b₃ value b₄ k m hb₁ hkey hb₂ hb₃ hvalue hb₄ hk =>
    have htext : b₁ ++ (key ++ (b₂ ++ '=' :: (b₃ ++ (value ++ (b₄ ++ k))))) ++ t =
        b₁ ++ (key ++ (b₂ ++ '=' :: (b₃ ++ (value ++ (b₄ ++ (k ++ t)))))) := by
      simp
    have hlt : u.length < (key ++ (b₂ ++ '=' :: (b₃ ++ (value ++ (b₄ ++ (k ++ t)))))).length := by
      have hlt := ht.length_lt (w := key ++ (b₂ ++ '=' :: (b₃ ++ (value ++ (b₄ ++ k))))) (by simp)
      simpa using hlt
    rw [htext]
    exact readStatements_of_readLine hb₁ (stops_keyText_append hkey _) (by simp)
      (readLine_pair hkey hb₂ hb₃ hvalue hb₄ hk ht) hlt

end FormRules.Toml
