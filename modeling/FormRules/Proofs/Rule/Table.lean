import Mathlib.Data.List.Nodup
import FormRules.Rule.Recognized

/-!
# The table of recognized rules

No name has two rows, so a row that is found by its name is the row of that name
(`RecognizedRule.find?_eq_some_iff`), and the suffixes that a rule produces are those of the row of its
name, or the name itself where there is no row (`Rule.suffixes_cases`). Whatever is said of suffixes
follows from this and from a look at the rows: there is at least one suffix and none comes twice, all
rows together know six (`Rule.mem_tableSuffixes_or_eq_name`), and none of them is empty
(`Rule.nil_mem_suffixes_iff`).
-/

namespace FormRules

namespace RecognizedRule

theorem nodup_names : names.Nodup := by decide

/-- No two rows have the same name. -/
theorem eq_of_mem_table {row row' : RecognizedRule} (h : row ∈ table) (h' : row' ∈ table)
    (hname : row.name = row'.name) : row = row' :=
  List.inj_on_of_nodup_map nodup_names h h' hname

/-- The row of a name is the row of the table with that name. -/
theorem find?_eq_some_iff {name : Text} {row : RecognizedRule} :
    find? name = some row ↔ row ∈ table ∧ row.name = name := by
  constructor
  · intro h
    have hname : row.name = name := by simpa using List.find?_some h
    exact ⟨List.mem_of_find?_eq_some h, hname⟩
  · rintro ⟨hrow, rfl⟩
    cases h : find? row.name with
    | none => exact absurd (decide_eq_true rfl) (List.find?_eq_none.mp h row hrow)
    | some other =>
      have hname : other.name = row.name := by simpa using List.find?_some h
      rw [eq_of_mem_table (List.mem_of_find?_eq_some h) hrow hname]

/-- A name without a row is none of the names of the table. -/
theorem find?_eq_none_iff {name : Text} : find? name = none ↔ name ∉ names := by
  rw [find?, List.find?_eq_none, names, List.mem_map]
  simp

/-- A row has a name and at least one column, and no column has an empty suffix. -/
theorem nonempty_of_mem_table :
    ∀ row ∈ table, row.name ≠ [] ∧ row.columns ≠ [] ∧ ∀ c ∈ row.columns, c.1 ≠ [] := by
  decide

/-- The suffixes of all rows. -/
def tableSuffixes : List Text :=
  ["required".toList, "type".toList, "pattern".toList, "maxlength".toList, "minlength".toList,
    "length".toList]

theorem suffix_mem_of_mem_table : ∀ row ∈ table, ∀ c ∈ row.columns, c.1 ∈ tableSuffixes := by
  decide

theorem nodup_suffixes_of_mem_table : ∀ row ∈ table, (row.columns.map Prod.fst).Nodup := by
  decide

/-- Of the recognized names only one is also a suffix. -/
theorem eq_required_of_mem_tableSuffixes :
    ∀ name ∈ names, name ∈ tableSuffixes → name = "required".toList := by
  decide

end RecognizedRule

namespace Rule

/-- A rule without a row has no columns. -/
theorem columnsOf_eq_none {name : Text} (h : name ∉ RecognizedRule.names) : columnsOf name = none := by
  rw [columnsOf, RecognizedRule.find?_eq_none_iff.mpr h]
  rfl

/-- The suffixes that a rule produces are those of the row of its name, or there is no row and its name is
the suffix. -/
theorem suffixes_cases (name : Text) :
    (∃ row ∈ RecognizedRule.table, row.name = name ∧ suffixes name = row.columns.map Prod.fst) ∨
      name ∉ RecognizedRule.names ∧ suffixes name = [name] := by
  unfold suffixes columnsOf
  cases h : RecognizedRule.find? name with
  | none => exact Or.inr ⟨RecognizedRule.find?_eq_none_iff.mp h, rfl⟩
  | some row =>
    obtain ⟨hrow, hname⟩ := RecognizedRule.find?_eq_some_iff.mp h
    exact Or.inl ⟨row, hrow, hname, rfl⟩

theorem mem_suffixes_iff (name k : Text) :
    k ∈ suffixes name ↔
      (∃ row ∈ RecognizedRule.table, row.name = name ∧ k ∈ row.columns.map Prod.fst) ∨
        name ∉ RecognizedRule.names ∧ name = k := by
  rcases suffixes_cases name with ⟨row, hrow, rfl, hsuffixes⟩ | ⟨hname, hsuffixes⟩
  · rw [hsuffixes]
    constructor
    · intro hk
      exact Or.inl ⟨row, hrow, rfl, hk⟩
    · rintro (⟨row', hrow', hname', hk⟩ | ⟨hnot, -⟩)
      · rwa [RecognizedRule.eq_of_mem_table hrow' hrow hname'] at hk
      · exact absurd (List.mem_map_of_mem hrow) hnot
  · rw [hsuffixes, List.mem_singleton]
    constructor
    · rintro rfl
      exact Or.inr ⟨hname, rfl⟩
    · rintro (⟨row, hrow, rfl, -⟩ | ⟨-, rfl⟩)
      · exact absurd (List.mem_map_of_mem hrow) hname
      · rfl

/-- Every rule produces an attribute. -/
theorem suffixes_ne_nil (name : Text) : suffixes name ≠ [] := by
  rcases suffixes_cases name with ⟨row, hrow, -, hsuffixes⟩ | ⟨-, hsuffixes⟩
  · obtain ⟨-, hcolumns, -⟩ := RecognizedRule.nonempty_of_mem_table row hrow
    rw [hsuffixes]
    exact fun hnil => hcolumns (List.map_eq_nil_iff.mp hnil)
  · rw [hsuffixes]
    exact List.cons_ne_nil name []

/-- No rule writes to one suffix twice. -/
theorem nodup_suffixes (name : Text) : (suffixes name).Nodup := by
  rcases suffixes_cases name with ⟨row, hrow, -, hsuffixes⟩ | ⟨-, hsuffixes⟩
  · rw [hsuffixes]
    exact RecognizedRule.nodup_suffixes_of_mem_table row hrow
  · rw [hsuffixes]
    exact List.nodup_singleton name

/-- A suffix is one of the six that the table knows, or it is the name of the rule. -/
theorem mem_tableSuffixes_or_eq_name {name k : Text} (h : k ∈ suffixes name) :
    k ∈ RecognizedRule.tableSuffixes ∨ name ∉ RecognizedRule.names ∧ k = name := by
  rcases suffixes_cases name with ⟨row, hrow, -, hsuffixes⟩ | ⟨hname, hsuffixes⟩
  · rw [hsuffixes] at h
    obtain ⟨c, hc, rfl⟩ := List.mem_map.mp h
    exact Or.inl (RecognizedRule.suffix_mem_of_mem_table row hrow c hc)
  · rw [hsuffixes, List.mem_singleton] at h
    exact Or.inr ⟨hname, h⟩

/-- Only a rule without a name produces an attribute with an empty suffix. -/
theorem nil_mem_suffixes_iff (name : Text) : [] ∈ suffixes name ↔ name = [] := by
  rcases suffixes_cases name with ⟨row, hrow, rfl, hsuffixes⟩ | ⟨-, hsuffixes⟩
  · obtain ⟨hname, -, hcolumns⟩ := RecognizedRule.nonempty_of_mem_table row hrow
    refine iff_of_false (fun hmem => ?_) hname
    rw [hsuffixes] at hmem
    obtain ⟨c, hc, hnil⟩ := List.mem_map.mp hmem
    exact hcolumns c hc hnil
  · rw [hsuffixes, List.mem_singleton, eq_comm]

end Rule

end FormRules
