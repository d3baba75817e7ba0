import FormRules.Proofs.Json.RoundTrip
import FormRules.Proofs.Toml.Documents

/-!
# Names declared twice

The two formats differ on a name that comes twice. A TOML document that declares it on two lines is
malformed, however the lines spell it and whatever stands between them, and nothing else makes a
document of declarations malformed (`read_toml_malformed_iff`). Since such a document is refused before
its values are looked at, a value of the wrong kind changes nothing about this, be it in front of the
repetition or behind it. A JSON document with the same members is read: the field stays where it came
first and has the rule text that came last.
-/

namespace FormRules

open Outcome

/-- Two members at different places have the same name. -/
def Repeats (ms : List FlatMember) : Prop :=
  ∃ (i j : Nat) (name : Text) (v v' : Scalar),
    i ≠ j ∧ ms[i]? = some (name, v) ∧ ms[j]? = some (name, v')

/-- A name is repeated if and only if the names are not distinct. -/
theorem repeats_iff (ms : List FlatMember) : Repeats ms ↔ ¬ (ms.map Prod.fst).Nodup := by
  constructor
  · rintro ⟨i, j, name, v, v', hne, hi, hj⟩ hdistinct
    have hnames : (ms.map Prod.fst)[i]? = (ms.map Prod.fst)[j]? := by
      rw [List.getElem?_map, List.getElem?_map, hi, hj]
      rfl
    obtain ⟨hlt, -⟩ := List.getElem?_eq_some_iff.mp hi
    exact hne ((List.getElem?_inj (by rwa [List.length_map]) hdistinct).mp hnames)
  · intro hrepeated
    induction ms with
    | nil => exact absurd List.nodup_nil hrepeated
    | cons m ms ih =>
      rw [List.map_cons, List.nodup_cons, not_and_or, not_not] at hrepeated
      rcases hrepeated with hmem | hrest
      · obtain ⟨m', hm', hname⟩ := List.mem_map.mp hmem
        obtain ⟨j, hj⟩ := List.mem_iff_getElem?.mp hm'
        exact ⟨0, j + 1, m.1, m.2, m'.2, by omega, rfl, by rw [← hname]; exact hj⟩
      · obtain ⟨i, j, name, v, v', hne, hi, hj⟩ := ih hrest
        exact ⟨i + 1, j + 1, name, v, v', by omega, hi, hj⟩

namespace Toml

/-- A document of declarations is malformed if and only if it repeats a name. -/
theorem readForm_malformed_iff {t : Text} {ms : List FlatMember} (h : Declarations t ms) :
    readForm t = .error .malformed ↔ Repeats ms := by
  rw [repeats_iff, readForm, readDocument_declarations h]
  by_cases hdistinct : (ms.map Prod.fst).Nodup
  · rw [if_pos hdistinct, iff_false_right (not_not.mpr hdistinct)]
    show ¬ (membersOf (memberEntries ms)).map _ = _
    rw [map_eq_error_iff]
    rcases flatMembers_cases ms with ⟨fields, rfl⟩ | ⟨fields, m, after, rfl, hm⟩
    · rw [membersOf_strings]
      exact fun heq => by cases heq
    · rw [membersOf_fault fields hm after]
      exact fun heq => by cases heq
  · rw [if_neg hdistinct]
    exact iff_of_true rfl hdistinct

theorem read_toml_malformed_iff {t : Text} {ms : List FlatMember} (h : Declarations t ms) :
    (∃ f, Form.read .toml t = .error f ∧ f.cause = .toml .malformed) ↔ Repeats ms := by
  rw [← readForm_malformed_iff h]
  simp only [Form.read, mapError_eq_error_iff]
  constructor
  · rintro ⟨f, ⟨cause, ⟨fault, hread, rfl⟩, rfl⟩, hcause⟩
    rw [hread, Cause.toml.inj hcause]
  · intro hread
    exact ⟨_, ⟨_, ⟨_, hread, rfl⟩, rfl⟩, rfl⟩

end Toml

/-- **No declaration is dropped without notice**: a TOML document of declarations is refused as
malformed if and only if two lines declare one name, at any two places, in any spelling and with values
of any kind. A JSON document with the same members in the same order, if they are all strings, is read
as the form that records them. -/
theorem Form.read_toml_refuses_repeated_name {t : Text} {ms : List FlatMember}
    (ht : Toml.Declarations t ms) :
    (Repeats ms ↔
      ∃ f, Form.read .toml t = .error f ∧ f.cause = .toml .malformed ∧ f.cause.detail? = none) ∧
    ∀ fields, ms = stringMembers fields → ∀ u, Json.Document u fields →
      ∃ form, Form.read .json u = .ok form ∧ form.Records fields := by
  constructor
  · rw [← Toml.read_toml_malformed_iff ht]
    constructor
    · rintro ⟨f, hread, hcause⟩
      exact ⟨f, hread, hcause, by rw [hcause]; rfl⟩
    · rintro ⟨f, hread, hcause, -⟩
      exact ⟨f, hread, hcause⟩
  · intro fields _ u hu
    exact ⟨_, (Json.read_json_eq_ok_iff_document u _).mpr ⟨fields, hu, rfl⟩,
      OrderedMap.records_ofList fields⟩

/-- A key in single quotes and in double quotes with an escape, with an integer and a truth value in front
of the repetition; and three strings of which the last has the name of the first. -/
theorem Form.read_toml_refuses_name_in_two_spellings :
    (∃ f, Form.read .toml "'a' = 0xF_f # one\nb=true\n\"\\u0061\"=\"\"\"\nip\"\"\"".toList = .error f ∧
        f.cause = .toml .malformed) ∧
      (∃ f, Form.read .toml "a='min:3'\nb='ip'\na='max:5'".toList = .error f ∧
        f.cause = .toml .malformed) ∧
      ∃ form, Form.read .json "\x7b\"a\":\"min:3\",\"b\":\"ip\",\"a\":\"max:5\"\x7d".toList =
        .ok form ∧ form.entries = [("a".toList, "max:5".toList), ("b".toList, "ip".toList)] := by
  have hname : Toml.KeyText "a".toList "a".toList := .bare (by decide) (by decide)
  have hother : Toml.KeyText "b".toList "b".toList := .bare (by decide) (by decide)
  -- two other spellings of the name
  have hliteral : Toml.KeyText "'a'".toList "a".toList :=
    .quoted (.literal (t := "a".toList) (by decide) (by decide))
  have hnumber : Toml.HexNumber "0061".toList 'a'.toNat :=
    .snoc (w := "006".toList) (n := 6) (k := 1) (.snoc (w := "00".toList) (n := 0) (k := 6)
      (.snoc (w := "0".toList) (n := 0) (k := 0) (.snoc (c := '0') (k := 0) .nil (Or.inl rfl))
        (Or.inl rfl)) (Or.inl rfl)) (Or.inl rfl)
  have hescape : Toml.KeyText "\"\\u0061\"".toList "a".toList :=
    .quoted (.basic (.cons (.escape (.four hnumber rfl)) .nil))
  -- values of three kinds
  have hdigits : Toml.Digits 16 "F_f".toList 255 :=
    .spaced (w := ['F']) (c := 'f') (n := 15) (k := 15) (.one ⟨Or.inr rfl, by decide⟩)
      ⟨Or.inl rfl, by decide⟩
  have hinteger : Toml.ValueForm "0xF_f".toList (.integer 255) :=
    .integer (.based (by decide : ('x', 16) ∈ Toml.baseMarks) hdigits)
  have hbody : Toml.LinesBody '"' Toml.BasicPiece "ip\"\"\"".toList "ip".toList :=
    .piece (w := ['i']) (s := ['i']) (.spelling (.plain (by decide) (by decide) (by decide)))
      (.piece (w := ['p']) (s := ['p']) (.spelling (.plain (by decide) (by decide) (by decide)))
        (.close (n := 0) (by decide)))
  have hlines : Toml.ValueForm "\"\"\"\nip\"\"\"".toList (.string "ip".toList) :=
    .basicLines (.below (e := ['\n']) (Or.inl rfl) hbody)
  have hstring : ∀ t : Text, Toml.PlainText t → '\'' ∉ t →
      Toml.ValueForm ('\'' :: (t ++ ['\''])) (.string t) :=
    fun t ht hquote => .flat (.string (.literal ht hquote))
  -- the lines of the first document
  have hfirst : Toml.Declaration "'a' = 0xF_f # one".toList (some ("a".toList, .integer 255)) :=
    @Toml.Declaration.pair [] "'a'".toList [' '] [' '] "0xF_f".toList [' '] "# one".toList
      ("a".toList, .integer 255) (by decide) hliteral (by decide) (by decide) hinteger (by decide)
      (.some (w := " one".toList) (by decide))
  have hsecond : Toml.Declaration "b=true".toList (some ("b".toList, .boolean true)) :=
    .of_parts "b".toList "true".toList ("b".toList, .boolean true) hother (.flat (.boolean true))
  have hthird : Toml.Declaration "\"\\u0061\"=\"\"\"\nip\"\"\"".toList
      (some ("a".toList, .string "ip".toList)) :=
    .of_parts "\"\\u0061\"".toList "\"\"\"\nip\"\"\"".toList ("a".toList, .string "ip".toList) hescape
      hlines
  have hmixed : Toml.Declarations
      "'a' = 0xF_f # one\nb=true\n\"\\u0061\"=\"\"\"\nip\"\"\"".toList
      [("a".toList, .integer 255), ("b".toList, .boolean true), ("a".toList, .string "ip".toList)] :=
    .more hfirst (Or.inl rfl) (.more hsecond (Or.inl rfl) (.last hthird))
  -- the lines of the second document
  have hmin : Toml.Declaration "a='min:3'".toList (some ("a".toList, .string "min:3".toList)) :=
    .of_parts "a".toList "'min:3'".toList ("a".toList, .string "min:3".toList) hname
      (hstring "min:3".toList (by decide) (by decide))
  have hip : Toml.Declaration "b='ip'".toList (some ("b".toList, .string "ip".toList)) :=
    .of_parts "b".toList "'ip'".toList ("b".toList, .string "ip".toList) hother
      (hstring "ip".toList (by decide) (by decide))
  have hmax : Toml.Declaration "a='max:5'".toList (some ("a".toList, .string "max:5".toList)) :=
    .of_parts "a".toList "'max:5'".toList ("a".toList, .string "max:5".toList) hname
      (hstring "max:5".toList (by decide) (by decide))
  have hstrings : Toml.Declarations "a='min:3'\nb='ip'\na='max:5'".toList
      (stringMembers [("a".toList, "min:3".toList), ("b".toList, "ip".toList),
        ("a".toList, "max:5".toList)]) :=
    .more hmin (Or.inl rfl) (.more hip (Or.inl rfl) (.last hmax))
  obtain ⟨f, hf, hcause, -⟩ := (read_toml_refuses_repeated_name hmixed).1.mp
    ⟨0, 2, "a".toList, .integer 255, .string "ip".toList, by decide, rfl, rfl⟩
  obtain ⟨hmalformed, hjson⟩ := read_toml_refuses_repeated_name hstrings
  obtain ⟨g, hg, hcause', -⟩ := hmalformed.mp
    ⟨0, 2, "a".toList, .string "min:3".toList, .string "max:5".toList, by decide, rfl, rfl⟩
  obtain ⟨form, hform, hrecords⟩ := hjson _ rfl _ (Json.document_compact_ofStrings _)
  refine ⟨⟨f, hf, hcause⟩, ⟨g, hg, hcause'⟩, form, hform, ?_⟩
  rw [hrecords.eq (OrderedMap.records_ofList _)]
  rfl

end FormRules
