import FormRules.Attributes.Json
import FormRules.Proofs.Json.Document

/-!
# Reading back what was written

The writer has one written form for each text and each object, without a blank in it, and that form
is one of the grammar: `spelling_escaped` says so of a single character, and
`document_compact_ofStrings` of an object of strings. Since the documents of the grammar are the ones
that are read, a form is read back as it was.
-/

namespace FormRules.Json

/-! ### Strings -/

theorem hexDigit_digit {n : Nat} (h : n < 16) : HexDigit (Text.Hex.digit n) n :=
  hexValue?_eq_some_iff.mp (Text.Hex.value?_digit ⟨n, h⟩)

/-- A character below U+0020 is written by its number in four digits. -/
theorem codeUnit_digits {n : Nat} (h : n < 0x20) :
    CodeUnit ['0', '0', Text.Hex.digit (n / 16), Text.Hex.digit (n % 16)] n := by
  have hcode := CodeUnit.digits (hexDigit_digit (n := 0) (by decide))
    (hexDigit_digit (n := 0) (by decide)) (hexDigit_digit (n := n / 16) (by omega))
    (hexDigit_digit (n := n % 16) (by omega))
  rwa [show 16 * (16 * (16 * 0 + 0) + n / 16) + n % 16 = n by omega] at hcode

/-- What the writer makes of a character is a written form of it. -/
theorem spelling_escaped (c : Char) : Spelling (escaped c) c := by
  unfold escaped
  -- the seven characters that have a short escape
  iterate 7
    split
    · subst c
      exact .escape (.short (by decide))
  split
  · rename_i h
    have hescape := UnicodeEscape.single (codeUnit_digits h) (by unfold Leading; omega)
      (by unfold Trailing; omega)
    rw [Char.ofNat_toNat] at hescape
    exact .escape (.unicode hescape)
  · rename_i hq hb _ _ _ _ _ hc
    exact .plain hq hb (by omega)

theorem content_content (t : Text) : Content (content t) t := by
  induction t with
  | nil => exact .nil
  | cons c t ih => exact .cons (spelling_escaped c) ih

theorem stringText_quoted (t : Text) : StringText (quoted t) t :=
  ⟨content t, content_content t, rfl⟩

/-! ### Objects -/

theorem member_compact (m : Text × Text) : Member (quoted m.1 ++ ':' :: quoted m.2) m :=
  ⟨_, [], ⟨_, [], [], _, stringText_quoted m.1, .nil, .nil, stringText_quoted m.2, rfl⟩, .nil,
    (List.append_nil _).symm⟩

theorem compactMembers_strings (ms : List (Text × Text)) :
    Value.compactMembers (ms.map fun m => (m.1, .string m.2)) =
      ms.map fun m => quoted m.1 ++ ':' :: quoted m.2 := by
  induction ms with
  | nil => rfl
  | cons m ms ih => rw [List.map_cons, Value.compactMembers, ih, List.map_cons, Value.compact]

/-- Members with commas between them are a list of members. -/
theorem members_join (m : Text × Text) (ms : List (Text × Text)) :
    Members (Text.join [','] ((m :: ms).map fun m => quoted m.1 ++ ':' :: quoted m.2))
      (m :: ms) := by
  induction ms generalizing m with
  | nil =>
    rw [List.map_singleton, Text.join, List.intercalate_singleton]
    exact .last (member_compact m)
  | cons m' ms ih =>
    have hmore := Members.more (member_compact m) .nil (ih m')
    simpa [Text.join] using hmore

/-- What the writer makes of an object of strings is a document with its members. -/
theorem document_compact_ofStrings (ms : List (Text × Text)) :
    Document (Value.ofStrings ms).compact ms := by
  rw [Value.ofStrings, Value.compact, compactMembers_strings]
  refine ⟨[], [], Text.join [','] (ms.map fun m => quoted m.1 ++ ':' :: quoted m.2), [], .nil, .nil,
    ?_, .nil, rfl⟩
  cases ms with
  | nil => exact .none
  | cons m ms => exact .some (members_join m ms)

/-- **A written form is read back**: the same fields in the same order with the same rule texts. -/
theorem read_json_compact_toJson (form : Form) : Form.read .json form.toJson.compact = .ok form :=
  (read_json_eq_ok_iff_document _ _).mpr
    ⟨form.entries, document_compact_ofStrings form.entries, form.ofList_entries.symm⟩

end FormRules.Json
