import FormRules.Proofs.Json.Faults
import FormRules.Proofs.Json.RoundTrip
import FormRules.Proofs.Toml.Documents

/-!
# The two formats agree on flat documents

The same names with values make a compact JSON object and many TOML documents, one for each way of
spelling the keys and strings and of laying out the lines. Both formats read strings as the same form
(`read_json_strings`, `read_toml_strings`), and where a value is no string both fail with the same
words about the first such value (`read_json_fault`, `read_toml_fault`), although one reader stops at
that value and the other one reads to the end of the document first.
-/

namespace FormRules

open Outcome

/-! ### Compact objects -/

namespace Json

theorem compactObject_strings (fields : List (Text × Text)) :
    compactObject (stringMembers fields) = (Value.ofStrings fields).compact := by
  rw [compactObject, stringMembers, List.map_map, Value.ofStrings, Value.compact,
    compactMembers_strings]
  rfl

/-- A compact object of strings is read as the form that its members make. -/
theorem read_json_strings (fields : List (Text × Text)) :
    Form.read .json (compactObject (stringMembers fields)) = .ok (.ofList fields) := by
  rw [compactObject_strings]
  exact (read_json_eq_ok_iff_document _ _).mpr ⟨fields, document_compact_ofStrings fields, rfl⟩

/-- Members without blanks, each with a comma behind it. -/
theorem leadingMembers_compact (fields : List (Text × Text)) :
    LeadingMembers (((stringMembers fields).map compactMember).flatMap (· ++ [','])) fields := by
  induction fields with
  | nil => exact .nil
  | cons f fields ih =>
    have hleading := LeadingMembers.cons (member_compact f) .nil ih
    rwa [List.append_cons] at hleading

/-- A compact object fails with the first of its values that is no string. -/
theorem read_json_fault (fields : List (Text × Text)) {m : FlatMember} (hm : ¬ m.2.IsString)
    (after : List FlatMember) :
    Form.read .json (compactObject (stringMembers fields ++ m :: after)) =
      .error ⟨[.readingForm .json], .json (.mismatch ⟨m.2.found, .string⟩)⟩ := by
  obtain ⟨rest, hrest, hjoin⟩ := Text.exists_join_eq [','] ((stringMembers fields).map compactMember)
    (compactMember m) (after.map compactMember)
  -- a comma or the closing brace follows the value, and neither goes on a number
  have hends : EndsNumber (rest ++ ['}']) := by
    rcases hrest with rfl | ⟨t, rfl⟩
    · exact endsNumber_cons (by decide) []
    · exact endsNumber_cons (by decide) (t ++ ['}'])
  have hbreaks : BreaksAt (compactObject (stringMembers fields ++ m :: after)) m.2.found := by
    refine ⟨[], [], _, fields, Json.quoted m.1, m.1, [], [], m.2.compact ++ (rest ++ ['}']), .nil, .nil,
      leadingMembers_compact fields, stringText_quoted m.1, .nil, .nil, otherValue_scalar hm hends, ?_⟩
    rw [compactObject, List.map_append, List.map_cons, hjoin, compactMember]
    simp
  rw [Form.read, readForm, readDocument_of_breaksAt hbreaks]
  rfl

end Json

/-! ### TOML documents -/

namespace Toml

/-- A flat document of strings is read as the form that its members make. -/
theorem read_toml_strings {fields : List (Text × Text)} {t : Text}
    (h : FlatDocument t (stringMembers fields)) (hdistinct : (fields.map Prod.fst).Nodup) :
    Form.read .toml t = .ok (.ofList fields) := by
  have hnames : ((stringMembers fields).map Prod.fst).Nodup := by
    rw [stringMembers, List.map_map]
    exact hdistinct
  rw [Form.read, readForm, readDocument_flat h, if_pos hnames]
  show Except.mapError _ (Except.mapError _ ((membersOf _).map _)) = _
  rw [membersOf_strings]
  rfl

/-- A flat document fails with the first of its values that is no string. -/
theorem read_toml_fault {fields : List (Text × Text)} {m : FlatMember} (hm : ¬ m.2.IsString)
    {after : List FlatMember} {t : Text} (h : FlatDocument t (stringMembers fields ++ m :: after))
    (hdistinct : ((stringMembers fields ++ m :: after).map Prod.fst).Nodup) :
    Form.read .toml t =
      .error ⟨[.readingForm .toml], .toml (.mismatch ⟨m.2.found, .string⟩)⟩ := by
  rw [Form.read, readForm, readDocument_flat h, if_pos hdistinct]
  show Except.mapError _ (Except.mapError _ ((membersOf _).map _)) = _
  rw [membersOf_fault fields hm after]
  rfl

end Toml

/-! ### Both formats -/

/-- The words about a value that is no string. -/
theorem Mismatch.message_string (found : Found) :
    Mismatch.message ⟨found, .string⟩ =
      "invalid type: ".toList ++ found.message ++ ", expected a string".toList :=
  List.append_assoc ..

/-- **The two formats agree on flat documents**: a compact JSON object and a TOML document with the
same members in the same order, their names distinct, are read as the same form with these members as
its fields, or fail with the same words about the first value that is no string. They are read if and
only if all values are strings. -/
theorem Form.read_toml_agrees_with_read_json {ms : List FlatMember}
    (hdistinct : (ms.map Prod.fst).Nodup) {t : Text} (ht : Toml.FlatDocument t ms) :
    ((∃ form : Form, ms = stringMembers form.entries ∧ Form.read .toml t = .ok form ∧
        Form.read .json (compactObject ms) = .ok form) ∨
      ∃ fields m after f g, ms = stringMembers fields ++ m :: after ∧ ¬ m.2.IsString ∧
        Form.read .toml t = .error f ∧ f.cause = .toml (.mismatch ⟨m.2.found, .string⟩) ∧
        Form.read .json (compactObject ms) = .error g ∧
        g.cause = .json (.mismatch ⟨m.2.found, .string⟩) ∧
        f.cause.detail? =
          some ("invalid type: ".toList ++ m.2.found.message ++ ", expected a string".toList) ∧
        g.cause.detail? = f.cause.detail?) ∧
    ((∃ form, Form.read .toml t = .ok form) ↔ ∀ m ∈ ms, m.2.IsString) ∧
    ((∃ form, Form.read .json (compactObject ms) = .ok form) ↔ ∀ m ∈ ms, m.2.IsString) := by
  rcases flatMembers_cases ms with ⟨fields, rfl⟩ | ⟨fields, m, after, rfl, hm⟩
  · have hfields : (fields.map Prod.fst).Nodup := by
      rwa [stringMembers, List.map_map] at hdistinct
    have htoml := Toml.read_toml_strings ht hfields
    have hjson := Json.read_json_strings fields
    have hentries : (OrderedMap.ofList fields).entries = fields :=
      OrderedMap.entries_insertAll_of_nodup OrderedMap.empty hfields
    have hstrings : ∀ m ∈ stringMembers fields, m.2.IsString := fun m hm => by
      obtain ⟨f, -, rfl⟩ := List.mem_map.mp hm
      exact ⟨f.2, rfl⟩
    exact ⟨Or.inl ⟨_, by rw [hentries], htoml, hjson⟩, iff_of_true ⟨_, htoml⟩ hstrings,
      iff_of_true ⟨_, hjson⟩ hstrings⟩
  · have htoml := Toml.read_toml_fault hm ht hdistinct
    have hjson := Json.read_json_fault fields hm after
    have hmixed : ¬ ∀ m' ∈ stringMembers fields ++ m :: after, m'.2.IsString := fun hall =>
      hm (hall m (List.mem_append_right _ List.mem_cons_self))
    refine ⟨Or.inr ⟨fields, m, after, _, _, rfl, hm, htoml, rfl, hjson, rfl,
        congrArg some (Mismatch.message_string _), rfl⟩,
      iff_of_false ?_ hmixed, iff_of_false ?_ hmixed⟩
    · rintro ⟨form, hform⟩
      rw [htoml] at hform
      cases hform
    · rintro ⟨form, hform⟩
      rw [hjson] at hform
      cases hform

/-- A comment, a field with a tab in its rule text, and a number where a rule text should be. -/
theorem Form.read_toml_agrees_of_three_lines :
    ∃ v f g, ¬ Scalar.IsString v ∧
      Form.read .toml "# form\r\n\t'name' = \"a\\tb\"\nage=-7".toList = .error f ∧
      Form.read .json "\x7b\"name\":\"a\\tb\",\"age\":-7\x7d".toList = .error g ∧
      f.cause.detail? =
        some ("invalid type: ".toList ++ v.found.message ++ ", expected a string".toList) ∧
      g.cause.detail? = f.cause.detail? := by
  have hcomment : Toml.Line "# form".toList none :=
    .idle (b := []) (by decide) (.some (w := " form".toList) (by decide))
  have hliteral : Toml.StringText "'name'".toList "name".toList :=
    .literal (t := "name".toList) (by decide) (by decide)
  have hcontent : Toml.Content "a\\tb".toList "a\tb".toList :=
    .cons (.plain (by decide) (by decide) (by decide)) (.cons (.escape (.short (by decide)))
      (.cons (.plain (by decide) (by decide) (by decide)) .nil))
  have hname : Toml.Line "\t'name' = \"a\\tb\"".toList
      (some ("name".toList, .string "a\tb".toList)) :=
    @Toml.Line.pair ['\t'] "'name'".toList [' '] [' '] "\"a\\tb\"".toList [] []
      ("name".toList, .string "a\tb".toList) (by decide) (.quoted hliteral) (by decide) (by decide)
      (.string (.basic hcontent)) (by decide) .none
  have hage : Toml.Line "age=-7".toList (some ("age".toList, .integer (-7))) :=
    @Toml.Line.pair [] "age".toList [] [] "-7".toList [] [] ("age".toList, .integer (-7)) (by decide)
      (.bare (by decide) (by decide)) (by decide) (by decide) (.integer (.minus 7)) (by decide) .none
  have hdocument : Toml.FlatDocument "# form\r\n\t'name' = \"a\\tb\"\nage=-7".toList
      [("name".toList, .string "a\tb".toList), ("age".toList, .integer (-7))] :=
    .more hcomment (Or.inr rfl) (.more hname (Or.inl rfl) (.last hage))
  obtain ⟨hagree, -, hjson⟩ := read_toml_agrees_with_read_json (by decide) hdocument
  rcases hagree with ⟨form, -, -, hform⟩ | ⟨-, m, -, f, g, -, hm, hf, -, hg, -, hdetail, hsame⟩
  · obtain ⟨t, ht⟩ := hjson.mp ⟨form, hform⟩ ("age".toList, .integer (-7)) (by simp)
    cases ht
  · exact ⟨m.2, f, g, hm, hf, hg, hdetail, hsame⟩

end FormRules
