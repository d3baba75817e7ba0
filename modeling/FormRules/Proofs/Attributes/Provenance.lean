import FormRules.Proofs.Attributes.Tokens
import FormRules.Proofs.Rule.Table
import FormRules.Proofs.Text.Pieces

/-!
# Where the keys of attributes come from

Every key of a field's attributes is owed to the name of a token that counts: a recognized name brings
the suffixes of its row and any other name brings itself. Writing over attributes neither loses nor
invents a key, so this is an equivalence (`stem_append_mem_keys_iff`).

It bounds the keys in two ways. What follows the stem is a suffix of the table or the name of a token,
and neither holds a separator (`Rule.separators_notMem_of_mem_suffixes`). And since the table knows six
suffixes, only names without a row can add to these (`length_keys_le`).
-/

namespace FormRules

/-- What is not in a token is not in its name. -/
theorem Rule.notMem_name {c : Char} {t : Text} (h : c ∉ t) : c ∉ (Text.cut ':' t).1 := by
  rw [← Text.before_zero]
  exact fun hc => h ((Text.before_sublist ':' 0 t).subset hc)

/-- A suffix that a token brings holds no bar and no colon. -/
theorem Rule.separators_notMem_of_mem_suffixes {t k : Text} (hbar : '|' ∉ t)
    (h : k ∈ suffixes (Text.cut ':' t).1) : '|' ∉ k ∧ ':' ∉ k := by
  rcases mem_tableSuffixes_or_eq_name h with htable | ⟨-, rfl⟩
  · have hfree : ∀ k ∈ RecognizedRule.tableSuffixes, '|' ∉ k ∧ ':' ∉ k := by decide
    exact hfree k htable
  · exact ⟨notMem_name hbar, Text.sep_notMem_cut ':' t⟩

namespace ReadingPolicy

variable (policy : ReadingPolicy) (rules : Text)

/-- The names without a row of the tokens that count, in order. -/
def unrecognizedNames : List Text :=
  (((tokens rules).filter policy.emptyTokens.admits).map fun t => (Text.cut ':' t).1).filter
    fun name => !RecognizedRule.names.contains name

theorem mem_unrecognizedNames_iff (name : Text) :
    name ∈ policy.unrecognizedNames rules ↔
      (∃ t ∈ tokens rules, policy.emptyTokens.admits t = true ∧ (Text.cut ':' t).1 = name) ∧
        name ∉ RecognizedRule.names := by
  rw [unrecognizedNames, List.mem_filter, List.mem_map]
  simp [and_assoc]

/-! ### Keys and suffixes -/

/-- The keys are the suffixes that the tokens that count bring, each behind the stem. -/
theorem mem_keys_attributes_iff_exists_suffix (key : Text) :
    key ∈ (policy.attributes rules).keys ↔
      ∃ t ∈ tokens rules, policy.emptyTokens.admits t = true ∧
        ∃ k ∈ Rule.suffixes (Text.cut ':' t).1, Attribute.stem ++ k = key := by
  simp only [mem_keys_attributes_iff, EmptyTokens.Writes, Rule.keysOf, List.mem_map]

theorem stem_append_mem_keys_iff (k : Text) :
    Attribute.stem ++ k ∈ (policy.attributes rules).keys ↔
      ∃ t ∈ tokens rules, policy.emptyTokens.admits t = true ∧
        k ∈ Rule.suffixes (Text.cut ':' t).1 := by
  simp only [mem_keys_attributes_iff_exists_suffix, List.append_cancel_left_eq, exists_eq_right]

/-- A key is the stem with something behind it that holds no separator. -/
theorem exists_eq_stem_append {key : Text} (h : key ∈ (policy.attributes rules).keys) :
    ∃ k, key = Attribute.stem ++ k ∧ '|' ∉ k ∧ ':' ∉ k := by
  obtain ⟨t, ht, -, k, hk, rfl⟩ := (mem_keys_attributes_iff_exists_suffix policy rules key).mp h
  have hbar : '|' ∉ t := Text.notMem_of_mem_splitOn ht
  exact ⟨k, rfl, Rule.separators_notMem_of_mem_suffixes hbar hk⟩

/-- A recognized name that is no suffix of the table is in no key. -/
theorem stem_append_notMem_keys {name : Text} (hname : name ∈ RecognizedRule.names)
    (hne : name ≠ "required".toList) : Attribute.stem ++ name ∉ (policy.attributes rules).keys := by
  rw [stem_append_mem_keys_iff]
  rintro ⟨t, -, -, hk⟩
  rcases Rule.mem_tableSuffixes_or_eq_name hk with htable | ⟨hnot, rfl⟩
  · exact hne (RecognizedRule.eq_required_of_mem_tableSuffixes name hname htable)
  · exact hnot hname

/-- There are no more keys than suffixes in the table and names without a row. -/
theorem length_keys_le :
    (policy.attributes rules).keys.length ≤ 6 + (policy.unrecognizedNames rules).eraseDups.length := by
  have hsub : (policy.attributes rules).keys ⊆
      (RecognizedRule.tableSuffixes ++ (policy.unrecognizedNames rules).eraseDups).map
        (Attribute.stem ++ ·) := by
    intro key hkey
    obtain ⟨t, ht, hadmits, k, hk, rfl⟩ :=
      (mem_keys_attributes_iff_exists_suffix policy rules key).mp hkey
    refine List.mem_map_of_mem (List.mem_append.mpr ?_)
    rcases Rule.mem_tableSuffixes_or_eq_name hk with htable | ⟨hnot, rfl⟩
    · exact Or.inl htable
    · refine Or.inr (List.mem_eraseDups.mpr ?_)
      exact (mem_unrecognizedNames_iff policy rules _).mpr ⟨⟨t, ht, hadmits, rfl⟩, hnot⟩
  have hnodup : (policy.attributes rules).keys.Nodup := (policy.attributes rules).nodup
  have hle := hnodup.length_le_of_subset hsub
  rwa [List.length_map, List.length_append] at hle

/-- **Every key is owed to the name of a token.** What follows the stem in a key is a suffix of the row
of some recognized name, or a name without a row, and the token with that name counts; and every such
suffix and name is found in a key. So the part behind the stem never holds a separator, a recognized
name is never found there unless it is a suffix too, and there are at most six keys more than there are
names without a row. -/
theorem keys_come_from_names :
    let keys := (policy.attributes rules).keys
    (∀ k, "data-parsley-".toList ++ k ∈ keys ↔
      ∃ t ∈ tokens rules, policy.emptyTokens.admits t = true ∧
        ((∃ row ∈ RecognizedRule.table, row.name = (Text.cut ':' t).1 ∧
            k ∈ row.columns.map Prod.fst) ∨
          (Text.cut ':' t).1 ∉ RecognizedRule.names ∧ (Text.cut ':' t).1 = k)) ∧
    (∀ key ∈ keys, ∃ k, key = "data-parsley-".toList ++ k ∧ '|' ∉ k ∧ ':' ∉ k) ∧
    (∀ name ∈ RecognizedRule.names, name ≠ "required".toList →
      "data-parsley-".toList ++ name ∉ keys) ∧
    keys.length ≤ 6 + (policy.unrecognizedNames rules).eraseDups.length := by
  intro keys
  refine ⟨fun k => ?_, fun key hkey => exists_eq_stem_append policy rules hkey,
    fun name hname hne => stem_append_notMem_keys policy rules hname hne,
    length_keys_le policy rules⟩
  have hkey := stem_append_mem_keys_iff policy rules k
  simp only [Rule.mem_suffixes_iff] at hkey
  exact hkey

/-- An unrecognized name may be a suffix of the table; the two tokens then share one key. -/
theorem keys_come_from_names_of_shared_suffix :
    let keys := ((default : ReadingPolicy).attributes "size:1,2|length:7".toList).keys
    "data-parsley-".toList ++ "length".toList ∈ keys ∧
      (∃ k, "data-parsley-length".toList = "data-parsley-".toList ++ k ∧ '|' ∉ k ∧ ':' ∉ k) ∧
      "data-parsley-".toList ++ "size".toList ∉ keys ∧ keys.length ≤ 6 + 1 := by
  intro keys
  obtain ⟨hkey, hform, hname, hcount⟩ := keys_come_from_names default "size:1,2|length:7".toList
  have hmem : "data-parsley-".toList ++ "length".toList ∈ keys :=
    (hkey "length".toList).mpr
      ⟨"length:7".toList, by decide, rfl, Or.inr ⟨by decide, rfl⟩⟩
  exact ⟨hmem, hform _ hmem, hname "size".toList (by decide) (by decide), hcount⟩

end ReadingPolicy

end FormRules
