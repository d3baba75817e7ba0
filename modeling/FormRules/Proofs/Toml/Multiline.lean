import FormRules.Proofs.Toml.Strings

/-!
# Reading strings over several lines

The reader for double quotes and the reader for single quotes differ in their pieces only. What the
two have in common is `ReadsBody`: how a reader takes the closing quotes, a quote inside, a line end and
a piece. From that alone a whole body is read as the text that it stands for (`ReadsBody.readBody`),
and with the opening quotes the string is (`readQuoted_basicLines`, `readQuoted_literalLines`).
-/

namespace FormRules.Toml

/-! ### Bodies -/

/-- A reader that takes the parts of a body, each of them before whatever stands behind it. -/
structure ReadsBody (quote : Char) (Piece : Text → Text → Text → Prop)
    (read : Text → Option (Text × Text)) : Prop where
  /-- The closing quotes end the body, and those in excess belong to the text. -/
  close {n : Nat} {t : Text} : n ≤ 2 → NotAhead [quote] t →
    read (List.replicate (n + 3) quote ++ t) = some (List.replicate n quote, t)
  /-- A quote without two more behind it belongs to the text. -/
  quote {u : Text} : (∀ v, u ≠ quote :: quote :: v) →
    read (quote :: u) = (read u).map fun r => (quote :: r.1, r.2)
  /-- A line end of either kind counts as a line feed. -/
  newline {e : Text} (u : Text) : LineEnd e →
    read (e ++ u) = (read u).map fun r => ('\n' :: r.1, r.2)
  /-- A piece is taken as what it stands for. -/
  piece {w u s : Text} (t : Text) : Piece w u s → u ≠ [] →
    read (w ++ (u ++ t)) = (read (u ++ t)).map fun r => (s ++ r.1, r.2)

theorem LinesBody.ne_nil {quote : Char} {Piece : Text → Text → Text → Prop} {w s : Text}
    (h : LinesBody quote Piece w s) : w ≠ [] := by
  induction h with
  | close _ => exact List.cons_ne_nil _ _
  | piece _ _ ih | newline _ _ ih | quotes _ _ _ ih => exact List.append_ne_nil_of_right_ne_nil _ ih

theorem NotAhead.append {cs : List Char} {u : Text} (h : NotAhead cs u) (hne : u ≠ []) (t : Text) :
    NotAhead cs (u ++ t) := by
  obtain ⟨c, u, rfl⟩ := List.exists_cons_of_ne_nil hne
  exact fun d hd => h d hd

theorem NotAhead.ne_cons {c : Char} {t : Text} (h : NotAhead [c] t) (u : Text) : t ≠ c :: u := by
  rintro rfl
  exact h c rfl List.mem_cons_self

namespace ReadsBody

variable {quote : Char} {Piece : Text → Text → Text → Prop} {read : Text → Option (Text × Text)}

/-- Up to two quotes inside a body belong to the text. -/
theorem quotes (h : ReadsBody quote Piece read) {n : Nat} (hn : n ≤ 2) {u : Text}
    (hu : NotAhead [quote] u) :
    read (List.replicate n quote ++ u) =
      (read u).map fun r => (List.replicate n quote ++ r.1, r.2) := by
  have hone : read (quote :: u) = (read u).map fun r => (quote :: r.1, r.2) :=
    h.quote fun v => hu.ne_cons _
  have hcases : n = 0 ∨ n = 1 ∨ n = 2 := by omega
  rcases hcases with rfl | rfl | rfl
  · exact Option.map_id'.symm
  · exact hone
  · show read (quote :: quote :: u) = _
    rw [h.quote fun v heq => hu.ne_cons v (List.cons.inj heq).2, hone, Option.map_map]
    rfl

/-- A body is read up to and with its closing quotes, if no more quotes follow. -/
theorem readBody (h : ReadsBody quote Piece read) {w s : Text} (hw : LinesBody quote Piece w s)
    {t : Text} (ht : NotAhead [quote] t) : read (w ++ t) = some (s, t) := by
  induction hw with
  | close hn => exact h.close hn ht
  | piece hpiece hbody ih =>
    rw [List.append_assoc, h.piece t hpiece hbody.ne_nil, ih]
    rfl
  | newline he _ ih =>
    rw [List.append_assoc, h.newline _ he, ih]
    rfl
  | quotes hn hu hbody ih =>
    rw [List.append_assoc, h.quotes hn (hu.append hbody.ne_nil t), ih]
    rfl

end ReadsBody

/-! ### Between double quotes -/

theorem Plain.not_newline {c : Char} (h : Plain c) : c ≠ '\n' ∧ c ≠ '\r' := by
  constructor
  · rintro rfl
    exact absurd h (by decide)
  · rintro rfl
    exact absurd h (by decide)

/-- A character that is no backslash belongs to the text, unless it is the first of three quotes. -/
theorem readBasicLines_plain {c : Char} {u : Text} (hc : Plain c) (hb : c ≠ '\\')
    (hu : c = '"' → ∀ v, u ≠ '"' :: '"' :: v) :
    readBasicLines (c :: u) = (readBasicLines u).map fun r => (c :: r.1, r.2) := by
  obtain ⟨hfeed, hreturn⟩ := hc.not_newline
  rw [readBasicLines]
  · rw [if_pos ((isPlain_iff c).mpr hc)]
  · exact fun v hquote hv => hu hquote _ hv
  · exact fun v hquote hv => hu hquote _ hv
  · exact fun v hquote hv => hu hquote _ hv
  · exact fun v hc' _ => hreturn hc'
  · exact hfeed
  · exact hb

/-- A backslash at the end of a line is passed with the blanks and line ends behind it. -/
theorem readBasicLines_continued {b e g u : Text} (hb : Blanks b) (he : LineEnd e)
    (hg : BlankLines g) (hu : NotAhead [' ', '\t', '\n', '\r'] u) :
    readBasicLines ('\\' :: (b ++ (e ++ g)) ++ u) = readBasicLines u := by
  have hend : endsLine (b ++ (e ++ g) ++ u) = true := by
    rw [endsLine, List.append_assoc, skipBlanks_append hb]
    · rcases he with rfl | rfl <;> rfl
    · rcases he with rfl | rfl <;> exact Text.stops_cons rfl _
  rw [List.cons_append, readBasicLines, if_pos hend,
    skipBlankLines_append (.of_blanks hb (.newline he hg)) hu]

/-- The backslash of an escape does not stand at the end of a line. -/
theorem endsLine_escape {w : Text} {c : Char} (h : Escape w c) (t : Text) :
    endsLine (w ++ t) = false := by
  cases h with
  | short h =>
    have hletters : ∀ e ∈ shortEscapes, isBlank e.1 = false ∧ e.1 ≠ '\n' ∧ e.1 ≠ '\r' := by decide
    obtain ⟨hblank, hfeed, hreturn⟩ := hletters _ h
    rw [endsLine, List.singleton_append, skipBlanks_of_stops (Text.stops_cons hblank t)]
    unfold passNewline
    split
    · rename_i heq
      exact absurd (List.cons.inj heq).1 hfeed
    · rename_i heq
      exact absurd (List.cons.inj heq).1 hreturn
    · rfl
  | four _ _ | eight _ _ => rfl

theorem readBasicLines_escape {w : Text} {c : Char} (h : Escape w c) (t : Text) :
    readBasicLines ('\\' :: (w ++ t)) = (readBasicLines t).map fun r => (c :: r.1, r.2) := by
  have hread := readEscape_append h t
  rw [readBasicLines, if_neg (by simp [endsLine_escape h t])]
  split
  · rename_i he
    rw [hread] at he
    cases he
  · rename_i c' t' he
    rw [hread] at he
    cases he
    rfl

theorem readsBody_basic : ReadsBody '"' BasicPiece readBasicLines where
  close {n t} hn ht := by
    have hcases : n = 0 ∨ n = 1 ∨ n = 2 := by omega
    rcases hcases with rfl | rfl | rfl
    · show readBasicLines ('"' :: '"' :: '"' :: t) = _
      rw [readBasicLines]
      · rfl
      · exact fun v hv => ht.ne_cons _ hv
      · exact fun v hv => ht.ne_cons _ hv
    · show readBasicLines ('"' :: '"' :: '"' :: '"' :: t) = _
      rw [readBasicLines]
      · rfl
      · exact fun v hv => ht.ne_cons _ hv
    · show readBasicLines ('"' :: '"' :: '"' :: '"' :: '"' :: t) = _
      rw [readBasicLines]
      rfl
  quote hu := readBasicLines_plain (by decide) (by decide) fun _ => hu
  newline u he := by
    rcases he with rfl | rfl
    · show readBasicLines ('\n' :: u) = _
      rw [readBasicLines]
    · show readBasicLines ('\r' :: '\n' :: u) = _
      rw [readBasicLines]
  piece {w u s} t hpiece hne := by
    cases hpiece with
    | spelling h =>
      cases h with
      | plain hc hq hb => exact readBasicLines_plain hc hb fun heq => absurd heq hq
      | escape h => exact readBasicLines_escape h (u ++ t)
    | continued hb he hg hu =>
      rw [readBasicLines_continued hb he hg (hu.append hne t)]
      exact Option.map_id'.symm

/-! ### Between single quotes -/

/-- A character belongs to the text, unless it is the first of three quotes. -/
theorem readLiteralLines_plain {c : Char} {u : Text} (hc : Plain c)
    (hu : c = '\'' → ∀ v, u ≠ '\'' :: '\'' :: v) :
    readLiteralLines (c :: u) = (readLiteralLines u).map fun r => (c :: r.1, r.2) := by
  obtain ⟨hfeed, hreturn⟩ := hc.not_newline
  rw [readLiteralLines]
  · rw [if_pos ((isPlain_iff c).mpr hc)]
  · exact fun v hquote hv => hu hquote _ hv
  · exact fun v hquote hv => hu hquote _ hv
  · exact fun v hquote hv => hu hquote _ hv
  · exact fun v hc' _ => hreturn hc'
  · exact hfeed

theorem readsBody_literal : ReadsBody '\'' LiteralPiece readLiteralLines where
  close {n t} hn ht := by
    have hcases : n = 0 ∨ n = 1 ∨ n = 2 := by omega
    rcases hcases with rfl | rfl | rfl
    · show readLiteralLines ('\'' :: '\'' :: '\'' :: t) = _
      rw [readLiteralLines]
      · rfl
      · exact fun v hv => ht.ne_cons _ hv
      · exact fun v hv => ht.ne_cons _ hv
    · show readLiteralLines ('\'' :: '\'' :: '\'' :: '\'' :: t) = _
      rw [readLiteralLines]
      · rfl
      · exact fun v hv => ht.ne_cons _ hv
    · rfl
  quote hu := readLiteralLines_plain (by decide) fun _ => hu
  newline u he := by rcases he with rfl | rfl <;> rfl
  piece t hpiece _ := by
    cases hpiece with
    | plain hc hq => exact readLiteralLines_plain hc fun heq => absurd heq hq

/-! ### Strings as values -/

/-- Behind the opening quotes one line end is dropped, and then the body is read. -/
theorem ReadsBody.readString {quote : Char} {Piece : Text → Text → Text → Prop}
    {read : Text → Option (Text × Text)} (h : ReadsBody quote Piece read) {w s : Text}
    (hw : LinesString quote Piece w s) {t : Text} (ht : NotAhead [quote] t) :
    ∃ u, w = quote :: quote :: quote :: u ∧ read (dropNewline (u ++ t)) = some (s, t) := by
  cases hw with
  | @here u _ hu hbody =>
    have hsame : dropNewline (u ++ t) = u ++ t := by
      have hhead := hu.append hbody.ne_nil t
      unfold dropNewline passNewline
      split
      · rename_i heq
        exact absurd (by decide) (hhead '\n' (by rw [heq]; rfl))
      · rename_i heq
        exact absurd (by decide) (hhead '\r' (by rw [heq]; rfl))
      · rfl
    exact ⟨u, rfl, by rw [hsame, h.readBody hbody ht]⟩
  | @below e u _ he hbody =>
    have hdrop : dropNewline (e ++ u ++ t) = u ++ t := by rcases he with rfl | rfl <;> rfl
    exact ⟨e ++ u, rfl, by rw [hdrop, h.readBody hbody ht]⟩

/-- **A string between three double quotes** is read as the text that it stands for, if no double quote
follows. -/
theorem readQuoted_basicLines {w s : Text} (h : LinesString '"' BasicPiece w s) {t : Text}
    (ht : NotAhead ['"'] t) : readQuoted (w ++ t) = some (s, t) := by
  obtain ⟨u, rfl, hread⟩ := readsBody_basic.readString h ht
  exact hread

/-- **A string between three single quotes** is read as the text that it stands for, if no single quote
follows. -/
theorem readQuoted_literalLines {w s : Text} (h : LinesString '\'' LiteralPiece w s) {t : Text}
    (ht : NotAhead ['\''] t) : readQuoted (w ++ t) = some (s, t) := by
  obtain ⟨u, rfl, hread⟩ := readsBody_literal.readString h ht
  exact hread

end FormRules.Toml
