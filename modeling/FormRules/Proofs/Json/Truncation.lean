import FormRules.Proofs.Json.Document

/-!
# Documents that were cut or that go on

A document that was cut before its closing brace is never taken for another document, and never for a
malformed one: the reader answers that it ends too early. A document with anything but blanks
behind it is malformed.

The first is said of each reader and each text of the grammar (`Waits`): wherever the text is cut, the
reader finds it unfinished. Since the readers are built from smaller ones that pass a part of the text
and hand on the rest, so is the proof: `waits_bind` says it of one reader behind the other, and
`waits_skipBlanks` of a reader behind blanks.
-/

namespace FormRules.Json

open Outcome

/-! ### Cut texts -/

/-- A text that lacks one or more characters at the end of another. -/
def ProperPrefix (p t : Text) : Prop := p <+: t ∧ p ≠ t

namespace ProperPrefix

variable {p t u : Text} {c : Char}

theorem not_nil : ¬ ProperPrefix p [] := fun h => h.2 (List.prefix_nil.mp h.1)

theorem nil_cons : ProperPrefix [] (c :: t) := ⟨List.nil_prefix, (List.cons_ne_nil c t).symm⟩

/-- A text is cut before its first character or behind it. -/
theorem cons_cases (h : ProperPrefix p (c :: t)) : p = [] ∨ ∃ q, p = c :: q ∧ ProperPrefix q t := by
  obtain ⟨hp, hne⟩ := h
  rcases List.prefix_cons_iff.mp hp with rfl | ⟨q, rfl, hq⟩
  · exact Or.inl rfl
  · exact Or.inr ⟨q, rfl, hq, fun hqt => hne (by rw [hqt])⟩

/-- A text in two parts is cut within the first or behind it. -/
theorem append_cases (h : ProperPrefix p (t ++ u)) :
    ProperPrefix p t ∨ ∃ q, p = t ++ q ∧ ProperPrefix q u := by
  induction t generalizing p with
  | nil => exact Or.inr ⟨p, rfl, h⟩
  | cons c t ih =>
    rcases h.cons_cases with rfl | ⟨q, rfl, hq⟩
    · exact Or.inl nil_cons
    · rcases ih hq with ⟨hpre, hne⟩ | ⟨r, rfl, hr⟩
      · exact Or.inl ⟨List.cons_prefix_cons.mpr ⟨rfl, hpre⟩, fun heq => hne (List.cons.inj heq).2⟩
      · exact Or.inr ⟨r, rfl, hr⟩

end ProperPrefix

/-- A reader waits for the end of a text: wherever the text is cut, the reader finds it unfinished. -/
def Waits {α : Type} (r : Text → Except Fault α) (w : Text) : Prop :=
  ∀ p, ProperPrefix p w → r p = .error .unfinished

section Combinators

variable {α β : Type} {r : Text → Except Fault α} {f : α → Except Fault β} {w w₁ w₂ b : Text}

theorem waits_nil : Waits r [] := fun _ hp => absurd hp ProperPrefix.not_nil

/-- A text is waited for if its first character is and, behind this one, the rest is. -/
theorem waits_cons {c : Char} (hnil : r [] = .error .unfinished) (h : Waits (fun q => r (c :: q)) w) :
    Waits r (c :: w) := by
  intro p hp
  rcases hp.cons_cases with rfl | ⟨q, rfl, hq⟩
  · exact hnil
  · exact h q hq

/-- What the first of two steps waits for, both wait for. -/
theorem waits_bind_left (h : Waits r w) : Waits (fun t => r t >>= f) w := by
  intro p hp
  simp only [h p hp]
  rfl

theorem waits_map (h : Waits r w) (f : α → β) : Waits (fun t => (r t).map f) w := by
  intro p hp
  simp only [h p hp]
  rfl

/-- If the first of two steps waits for one part of a text and passes it, and the second waits for
the other part, then both wait for the whole. -/
theorem waits_bind {g : Text → α} (h₁ : Waits r w₁) (hr : ∀ q, r (w₁ ++ q) = .ok (g q))
    (h₂ : Waits (fun q => f (g q)) w₂) : Waits (fun t => r t >>= f) (w₁ ++ w₂) := by
  intro p hp
  rcases hp.append_cases with hp | ⟨q, rfl, hq⟩
  · exact waits_bind_left h₁ p hp
  · simp only [hr]
    exact h₂ q hq

/-- A reader behind blanks waits for the blanks too. -/
theorem waits_skipBlanks (hb : Blanks b) {c : Char} (hc : isBlank c = false)
    (h : Waits r (c :: w)) : Waits (fun t => r (skipBlanks t)) (b ++ c :: w) := by
  intro p hp
  rcases hp.append_cases with ⟨hpre, -⟩ | ⟨q, rfl, hq⟩
  · have hblanks : Blanks p := fun d hd => hb d (hpre.subset hd)
    simp only [skipBlanks_eq_nil_iff.mpr hblanks]
    exact h [] ProperPrefix.nil_cons
  · simp only [skipBlanks_append hb]
    rcases hq.cons_cases with rfl | ⟨q, rfl, -⟩
    · exact h [] ProperPrefix.nil_cons
    · simp only [skipBlanks_cons hc]
      exact h _ hq

/-- A reader that passes blanks on its own waits for what it waits for without them. -/
theorem waits_blanks_append (hskip : ∀ {b : Text}, Blanks b → ∀ t, r (b ++ t) = r t)
    (hnil : r [] = .error .unfinished) (hb : Blanks b) (h : Waits r w) : Waits r (b ++ w) := by
  intro p hp
  rcases hp.append_cases with ⟨hpre, -⟩ | ⟨q, rfl, hq⟩
  · have hblanks : Blanks p := fun d hd => hb d (hpre.subset hd)
    rw [← List.append_nil p, hskip hblanks]
    exact hnil
  · rw [hskip hb]
    exact h q hq

/-- A wanted character is waited for, and what stands behind it. -/
theorem waits_pass_bind (c : Char) {f : Text → Except Fault β} (h : Waits f w) :
    Waits (fun t => pass c t >>= f) (c :: w) := by
  refine waits_cons rfl fun q hq => ?_
  simp only [pass, if_true]
  exact h q hq

end Combinators

/-! ### Strings -/

/-- A hexadecimal digit takes one byte. -/
theorem utf8Size_of_hexDigit {c : Char} {n : Nat} (h : HexDigit c n) : c.utf8Size = 1 := by
  have hlt : c.toNat < 0x67 := lt_of_hexValue? (hexValue?_eq_some_iff.mpr h)
  refine Char.utf8Size_eq_one_iff.mpr ?_
  rw [UInt32.le_iff_toNat_le]
  exact Nat.le_of_lt_succ (Nat.lt_trans hlt (by decide))

theorem waits_readHex {w : Text} {n : Nat} (h : CodeUnit w n) : Waits readHex w := by
  cases h with
  | digits ha hb hc _ =>
    have ha := utf8Size_of_hexDigit ha
    have hb := utf8Size_of_hexDigit hb
    have hc := utf8Size_of_hexDigit hc
    refine waits_cons rfl (waits_cons ?_ (waits_cons ?_ (waits_cons ?_ ?_)))
    · simp [readHex, Text.byteLength, ha]
    · simp [readHex, Text.byteLength, ha, hb]
    · simp [readHex, Text.byteLength, ha, hb, hc]
    · exact waits_nil

theorem readHex_append {w : Text} {n : Nat} (h : CodeUnit w n) (q : Text) :
    readHex (w ++ q) = .ok (n, q) :=
  readHex_eq_ok_iff.mpr ⟨w, h, rfl⟩

theorem waits_readUnicode {w : Text} {c : Char} (h : UnicodeEscape w c) : Waits readUnicode w := by
  rw [funext readUnicode_eq]
  cases h with
  | single hw _ _ => exact waits_bind_left (waits_readHex hw)
  | pair hw hl hw' _ =>
    have ht := hl.not_trailing
    rw [← isLeading_iff] at hl
    rw [← isTrailing_iff] at ht
    refine waits_bind (waits_readHex hw) (readHex_append hw) ?_
    simp only [if_neg ht, if_pos hl]
    exact waits_pass_bind '\\' (waits_pass_bind 'u' (waits_bind_left (waits_readHex hw')))

theorem waits_readEscape {w : Text} {c : Char} (h : Escape w c) : Waits readEscape w := by
  cases h with
  | short _ => exact waits_cons rfl waits_nil
  | unicode h => exact waits_cons rfl (waits_readUnicode h)

theorem waits_readString_spelling {w : Text} {c : Char} (h : Spelling w c) : Waits readString w := by
  have hnil : readString [] = .error .unfinished := by rw [readString]
  cases h with
  | plain _ _ _ => exact waits_cons hnil waits_nil
  | escape h =>
    refine waits_cons hnil fun q hq => ?_
    have hread := waits_readEscape h q hq
    show readString ('\\' :: q) = .error .unfinished
    rw [readString]
    split
    · rename_i e he
      rw [hread] at he
      cases he
      rfl
    · rename_i he
      rw [hread] at he
      cases he

/-- Behind an opening quote the closing one is waited for. -/
theorem waits_readString {w s : Text} (h : Content w s) : Waits readString (w ++ ['"']) := by
  induction h with
  | nil => exact waits_cons (by rw [readString]) waits_nil
  | cons hw _ ih =>
    intro p hp
    rw [List.append_assoc] at hp
    rcases hp.append_cases with hp | ⟨q, rfl, hq⟩
    · exact waits_readString_spelling hw p hp
    · rw [readString_append hw, ih q hq]
      rfl

theorem readString_append_quote {w s : Text} (h : Content w s) (q : Text) :
    readString ((w ++ ['"']) ++ q) = .ok (s, q) :=
  readString_eq_ok_iff.mpr ⟨w, h, by simp⟩

/-! ### Entries and members -/

theorem waits_readRules {w s : Text} (h : StringText w s) : Waits readRules w := by
  obtain ⟨u, hu, rfl⟩ := h
  exact waits_cons rfl (waits_readString hu)

theorem waits_readMember {w : Text} {m : Text × Text} (h : Entry w m) : Waits readMember w := by
  obtain ⟨key, b₁, b₂, value, ⟨u, hu, rfl⟩, hb₁, hb₂, hvalue, rfl⟩ := h
  rw [funext readMember_eq]
  refine waits_pass_bind '"' (waits_bind (waits_readString hu) (readString_append_quote hu) ?_)
  -- the colon and what stands behind it is one reader behind blanks
  have hcolon : Waits (fun t => pass ':' t >>= fun t => readRules (skipBlanks t) >>= fun s =>
      .ok ((m.1, s.1), s.2)) (':' :: (b₂ ++ value)) := by
    refine waits_pass_bind ':' (waits_bind_left ?_)
    obtain ⟨v, hv, rfl⟩ := hvalue
    exact waits_skipBlanks hb₂ (by decide) (waits_readRules ⟨v, hv, rfl⟩)
  exact waits_skipBlanks hb₁ (by decide) hcolon

/-- The reader of members waits for what stands behind the first member, if that is waited for. -/
theorem waits_readMembers_of_readBehind {e b w : Text} {m : Text × Text} {c : Char} (he : Entry e m)
    (hb : Blanks b) (hc : isBlank c = false) (h : Waits (readBehind m) (c :: w)) :
    Waits readMembers (e ++ (b ++ c :: w)) := by
  rw [funext readMembers_eq_readBehind]
  exact waits_bind (waits_readMember he) (readMember_append he) (waits_skipBlanks hb hc h)

/-- Behind an opening brace and blanks the closing one is waited for. -/
theorem waits_readMembers {w : Text} {ms : List (Text × Text)} (h : Members w ms) :
    Waits readMembers (w ++ ['}']) := by
  induction h with
  | last h =>
    obtain ⟨e, b, he, hb, rfl⟩ := h
    rw [List.append_assoc]
    exact waits_readMembers_of_readBehind he hb (by decide) (waits_cons rfl waits_nil)
  | @more _ b' u m ms h hb' hu ih =>
    obtain ⟨e, b, he, hb, rfl⟩ := h
    obtain ⟨v, rfl⟩ := exists_eq_quote_cons_of_members hu
    have hlater : Waits (fun t => readMembers (skipBlanks t)) (b' ++ '"' :: (v ++ ['}'])) :=
      waits_skipBlanks hb' (by decide) ih
    have hcomma : Waits (readBehind m) (',' :: (b' ++ '"' :: (v ++ ['}']))) :=
      waits_cons rfl (waits_map hlater _)
    have hmore := waits_readMembers_of_readBehind he hb (by decide) hcomma
    simpa using hmore

/-! ### Documents -/

/-- Behind an opening brace the closing one is waited for. -/
theorem waits_readObject {b w : Text} {ms : List (Text × Text)} (hb : Blanks b) (h : Body w ms) :
    Waits readObject (b ++ (w ++ ['}'])) := by
  have hnil : readObject [] = .error .unfinished := by
    show readMembers [] = _
    rw [readMembers_eq]
    rfl
  refine waits_blanks_append readObject_blanks_append hnil hb ?_
  cases h with
  | none => exact waits_cons hnil waits_nil
  | some h =>
    have hmembers := waits_readMembers h
    obtain ⟨v, rfl⟩ := exists_eq_quote_cons_of_members h
    refine waits_cons hnil fun q hq => ?_
    have hne : '"' :: q ≠ '"' :: (v ++ ['}']) := fun heq => hq.2 (List.cons.inj heq).2
    exact hmembers ('"' :: q) ⟨List.cons_prefix_cons.mpr ⟨rfl, hq.1⟩, hne⟩

/-- The closing brace of a document is waited for. -/
theorem waits_readDocument {b₁ b₂ w : Text} {ms : List (Text × Text)} (hb₁ : Blanks b₁)
    (hb₂ : Blanks b₂) (h : Body w ms) :
    Waits readDocument (b₁ ++ '{' :: (b₂ ++ (w ++ ['}']))) :=
  waits_blanks_append readDocument_blanks_append rfl hb₁
    (waits_cons rfl (waits_bind_left (waits_readObject hb₂ h)))

/-- The parts of a document that ends with its closing brace. -/
theorem exists_parts_of_document {t : Text} {ms : List (Text × Text)} (h : Document t ms)
    (hend : ['}'] <:+ t) :
    ∃ b₁ b₂ w, Blanks b₁ ∧ Blanks b₂ ∧ Body w ms ∧ t = b₁ ++ '{' :: (b₂ ++ (w ++ ['}'])) := by
  obtain ⟨b₁, b₂, w, b₃, hb₁, hb₂, hw, hb₃, rfl⟩ := h
  rcases List.eq_nil_or_concat b₃ with rfl | ⟨b, c, rfl⟩
  · exact ⟨b₁, b₂, w, hb₁, hb₂, hw, rfl⟩
  · -- a blank is not the closing brace
    have hc : c = '}' := by
      obtain ⟨u, hu⟩ := hend
      have hlast : u ++ ['}'] = (b₁ ++ '{' :: (b₂ ++ (w ++ '}' :: b))) ++ [c] := by
        rw [hu]
        simp
      exact (List.cons.inj (List.append_inj' hlast rfl).2).1.symm
    have hblank := hb₃ c (by simp)
    rw [hc] at hblank
    exact absurd hblank (by decide)

/-- What stands behind a document decides whether both together are one. -/
theorem readDocument_append {t : Text} {ms : List (Text × Text)} (h : Document t ms)
    (hend : ['}'] <:+ t) (u : Text) :
    readDocument (t ++ u) = if (skipBlanks u).isEmpty then .ok ms else .error .malformed := by
  obtain ⟨b₁, b₂, w, hb₁, hb₂, hw, rfl⟩ := exists_parts_of_document h hend
  have hobject : readObject (b₂ ++ (w ++ '}' :: u)) = .ok (ms, u) :=
    readObject_eq_ok_iff.mpr ⟨b₂, w, hb₂, hw, rfl⟩
  have hskip : skipBlanks (b₁ ++ '{' :: (b₂ ++ (w ++ '}' :: u))) = '{' :: (b₂ ++ (w ++ '}' :: u)) :=
    skipBlanks_append_cons hb₁ (by decide) _
  have htext : b₁ ++ '{' :: (b₂ ++ (w ++ ['}'])) ++ u = b₁ ++ '{' :: (b₂ ++ (w ++ '}' :: u)) := by
    simp
  rw [htext, readDocument]
  simp only [hskip, hobject]
  rfl

/-! ### Forms -/

/-- **A document that was cut ends too early, and one that goes on is malformed.** A document that is
read and ends with its closing brace is not read any more when it lacks characters at its end, wherever
it was cut; with a text behind it that holds more than blanks it is malformed; and blanks behind it
change nothing. -/
theorem read_json_cut_or_continued {t : Text} {form : Form} (h : Form.read .json t = .ok form)
    (hend : ['}'] <:+ t) :
    (∀ p, ProperPrefix p t →
      Form.read .json p = .error ⟨[.readingForm .json], .json .unfinished⟩) ∧
    (∀ u, ¬ Blanks u →
      Form.read .json (t ++ u) = .error ⟨[.readingForm .json], .json .malformed⟩) ∧
    ∀ u, Blanks u → Form.read .json (t ++ u) = .ok form := by
  obtain ⟨members, hdoc, rfl⟩ := (read_json_eq_ok_iff_document t form).mp h
  refine ⟨fun p hp => ?_, fun u hu => ?_, fun u hu => ?_⟩
  · obtain ⟨b₁, b₂, w, hb₁, hb₂, hw, rfl⟩ := exists_parts_of_document hdoc hend
    have hread := waits_readDocument hb₁ hb₂ hw p hp
    rw [Form.read, readForm, hread]
    rfl
  · have hread := readDocument_append hdoc hend u
    rw [if_neg (by rwa [List.isEmpty_iff, skipBlanks_eq_nil_iff])] at hread
    rw [Form.read, readForm, hread]
    rfl
  · have hread := readDocument_append hdoc hend u
    rw [if_pos (by rwa [List.isEmpty_iff, skipBlanks_eq_nil_iff])] at hread
    rw [Form.read, readForm, hread]
    rfl

/-- A cut between the two halves of a pair ends too early, and a letter behind the brace is one too
many. -/
theorem read_json_of_cut_pair :
    ∃ form, Form.read .json "\x7b\"a\":\"\\ud83d\\ude00\"\x7d".toList = .ok form ∧
      Form.read .json "\x7b\"a\":\"\\ud83d\\u".toList =
        .error ⟨[.readingForm .json], .json .unfinished⟩ ∧
      Form.read .json ("\x7b\"a\":\"\\ud83d\\ude00\"\x7d".toList ++ " x".toList) =
        .error ⟨[.readingForm .json], .json .malformed⟩ ∧
      Form.read .json ("\x7b\"a\":\"\\ud83d\\ude00\"\x7d".toList ++ " \n".toList) = .ok form := by
  have hread : (Form.read .json "\x7b\"a\":\"\\ud83d\\ude00\"\x7d".toList).isOk = true := by
    decide +kernel
  cases h : Form.read .json "\x7b\"a\":\"\\ud83d\\ude00\"\x7d".toList with
  | error f =>
    rw [h] at hread
    cases hread
  | ok form =>
    obtain ⟨hcut, hmore, hblank⟩ := read_json_cut_or_continued h (by decide)
    have hproper : ProperPrefix "\x7b\"a\":\"\\ud83d\\u".toList
        "\x7b\"a\":\"\\ud83d\\ude00\"\x7d".toList := ⟨by decide, by decide⟩
    have hblanks : Blanks " \n".toList := skipBlanks_eq_nil_iff.mp rfl
    have hletter : ¬ Blanks " x".toList :=
      fun hb => absurd (skipBlanks_eq_nil_iff.mpr hb) (by decide)
    exact ⟨form, rfl, hcut _ hproper, hmore _ hletter, hblank _ hblanks⟩

end FormRules.Json
