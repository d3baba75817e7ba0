import FormRules.Proofs.Attributes.Tokens
import FormRules.Proofs.OrderedMap.Algebra
import FormRules.Proofs.Rule.Rendering
import FormRules.Proofs.Rule.Table

/-!
# Rules without a name

A rule without a name writes to the key that is the bare stem, and no other rule does: a row of the
table has a name and none of its suffixes is empty (`Rule.nil_mem_suffixes_iff`). The token of such a rule
is empty or begins with a colon. So what is made of the empty tokens, which is all that two policies
with the same reading of colons can differ in, shows at that key alone
(`erase_attributes_fallback_eq_skip`), where the empty tokens and those with a colon in front
overwrite each other (`get?_attributes_stem`).
-/

namespace FormRules

namespace Rule

/-! ### Tokens without a name -/

/-- A token has no name if it is empty or begins with a colon. -/
theorem name_eq_nil_iff (t : Text) : (Text.cut ':' t).1 = [] ↔ t = [] ∨ t.head? = some ':' := by
  cases t with
  | nil => exact iff_of_true rfl (Or.inl rfl)
  | cons c t =>
    by_cases hc : c = ':'
    · subst hc
      exact iff_of_true (by rw [Text.cut_cons_self]) (Or.inr rfl)
    · rw [Text.cut_cons_of_ne hc]
      simp [hc]

/-- The bare stem is written to by the tokens without a name. -/
theorem stem_mem_keysOf_iff (t : Text) :
    Attribute.stem ∈ keysOf t ↔ t = [] ∨ t.head? = some ':' := by
  rw [← name_eq_nil_iff, ← nil_mem_suffixes_iff, keysOf, List.mem_map]
  constructor
  · rintro ⟨suffix, hsuffix, hstem⟩
    rw [List.append_right_eq_self] at hstem
    rwa [← hstem]
  · intro hnil
    exact ⟨[], hnil, List.append_nil _⟩

end Rule

/-- What a token without a name writes: a space if it is empty, else its blob with a space in place of
each comma. -/
def ColonReading.unnamedValue (colons : ColonReading) : Text → Text
  | [] => [' ']
  | _ :: rest => (colons.blob rest).map fun c => if c = ',' then ' ' else c

/-- Whether a token has no name and counts: it begins with a colon, or it is empty and not skipped. -/
def EmptyTokens.admitsUnnamed : EmptyTokens → Text → Bool
  | .fallback, t => t = [] || t.head? = some ':'
  | .skip, t => t.head? = some ':'

/-- The tokens that write to the bare stem are those without a name that count. -/
theorem EmptyTokens.admitsUnnamed_iff (emptyTokens : EmptyTokens) (t : Text) :
    emptyTokens.admitsUnnamed t = true ↔ emptyTokens.Writes t Attribute.stem := by
  rw [Writes, Rule.stem_mem_keysOf_iff]
  cases emptyTokens with
  | fallback => simp [admitsUnnamed, admits]
  | skip => cases t <;> simp [admitsUnnamed, admits]

/-- A token without a name writes one value to the bare stem and nothing else. -/
theorem Rule.writesOf_unnamed (colons : ColonReading) {t : Text}
    (h : t = [] ∨ t.head? = some ':') :
    writesOf colons t = [(Attribute.stem, colons.unnamedValue t)] := by
  cases t with
  | nil => cases colons <;> rfl
  | cons c rest =>
    obtain rfl : c = ':' := by simpa using h
    have hfree : ':' ∉ ([] : Text) := List.not_mem_nil
    have hrule : ofToken colons (':' :: rest) = ⟨[], .ofBlob (colons.blob rest)⟩ :=
      ofToken_append_cons colons hfree rest
    have hvalue : (Arguments.ofBlob (colons.blob rest)).joined [' '] =
        colons.unnamedValue (':' :: rest) := Arguments.joined_singleton_ofBlob _ ' '
    rw [writesOf, hrule, ← hvalue]
    rfl

namespace ReadingPolicy

/-! ### The bare stem -/

/-- The value at the bare stem is that of the last token without a name that counts. -/
theorem get?_attributes_stem (policy : ReadingPolicy) (rules : Text) :
    (policy.attributes rules).get? Attribute.stem =
      ((tokens rules).filter policy.emptyTokens.admitsUnnamed).getLast?.map
        policy.colons.unnamedValue := by
  have hwriter := policy.emptyTokens.admitsUnnamed_iff
  cases h : ((tokens rules).filter policy.emptyTokens.admitsUnnamed).getLast? with
  | none =>
    rw [List.getLast?_eq_none_iff, List.filter_eq_nil_iff] at h
    exact get?_attributes_of_no_writer policy fun t ht hw => h t ht ((hwriter t).mpr hw)
  | some token =>
    have hlast := EmptyTokens.lastWriter_of_getLast?_filter hwriter h
    have hunnamed : token = [] ∨ token.head? = some ':' := by
      obtain ⟨-, -, -, ⟨-, hstem⟩, -⟩ := hlast
      exact (Rule.stem_mem_keysOf_iff token).mp hstem
    rw [get?_attributes_of_lastWriter policy hlast, Rule.writesOf_unnamed _ hunnamed]
    rfl

/-- What the tokens that count write to other keys than the bare stem does not depend on the empty
ones. -/
theorem filter_writes_fallback_eq_skip (colons : ColonReading) (rules : Text) :
    ((writes ⟨.fallback, colons⟩ rules).filter fun e => e.1 ≠ Attribute.stem) =
      (writes ⟨.skip, colons⟩ rules).filter fun e => e.1 ≠ Attribute.stem := by
  rw [writes_eq_flatMap_tokens, writes_eq_flatMap_tokens, List.filter_flatMap, List.filter_flatMap]
  induction tokens rules with
  | nil => rfl
  | cons t ts ih =>
    rw [List.filter_cons_of_pos rfl, List.flatMap_cons, ih]
    cases t with
    | nil =>
      rw [List.filter_cons_of_neg Bool.false_ne_true, Rule.writesOf_unnamed colons (Or.inl rfl),
        List.filter_cons_of_neg (by simp)]
      rfl
    | cons c t =>
      rw [List.filter_cons_of_pos rfl, List.flatMap_cons]

/-- But for the bare stem, it does not matter whether empty tokens count. -/
theorem erase_attributes_fallback_eq_skip (colons : ColonReading) (rules : Text) :
    (attributes ⟨.fallback, colons⟩ rules).erase Attribute.stem =
      (attributes ⟨.skip, colons⟩ rules).erase Attribute.stem := by
  rw [attributes, attributes, OrderedMap.ofList, OrderedMap.ofList, OrderedMap.erase_insertAll,
    OrderedMap.erase_insertAll, filter_writes_fallback_eq_skip]

/-! ### Fields without attributes -/

/-- The tokens of a rule text are all empty if it holds nothing but bars. -/
theorem forall_tokens_eq_nil_iff (rules : Text) :
    (∀ t ∈ tokens rules, t = []) ↔ ∀ c ∈ rules, c = '|' := by
  constructor
  · intro h c hc
    have hjoin : c ∈ Text.join ['|'] (tokens rules) := by
      rw [tokens, Text.join_splitOn]
      exact hc
    rcases Text.mem_of_mem_join hjoin with hbar | ⟨t, ht, hmem⟩
    · exact List.mem_singleton.mp hbar
    · rw [h t ht] at hmem
      exact absurd hmem List.not_mem_nil
  · intro h t ht
    rw [List.eq_nil_iff_forall_not_mem]
    intro c hc
    obtain rfl := h c (Text.subset_of_mem_splitOn ht hc)
    exact Text.notMem_of_mem_splitOn ht hc

/-- A field has no attributes if none of its tokens counts, since a token that counts writes to some
key. -/
theorem attributes_eq_empty_iff_forall_tokens (policy : ReadingPolicy) (rules : Text) :
    policy.attributes rules = .empty ↔ ∀ t ∈ tokens rules, ¬ policy.emptyTokens.admits t = true := by
  constructor
  · intro h t ht hadmits
    obtain ⟨suffix, suffixes, hsuffixes⟩ :=
      List.exists_cons_of_ne_nil (Rule.suffixes_ne_nil (Text.cut ':' t).1)
    have hwrites : policy.emptyTokens.Writes t (Attribute.stem ++ suffix) :=
      ⟨hadmits, List.mem_map_of_mem (hsuffixes ▸ List.mem_cons_self)⟩
    have hkey := (mem_keys_attributes_iff policy rules _).mpr ⟨t, ht, hwrites⟩
    rw [h] at hkey
    exact absurd hkey List.not_mem_nil
  · intro h
    rw [attributes, writes_eq_flatMap_tokens, List.filter_eq_nil_iff.mpr h]
    rfl

/-- A field has no attributes if empty tokens are skipped and its tokens are all empty. -/
theorem attributes_eq_empty_iff (policy : ReadingPolicy) (rules : Text) :
    policy.attributes rules = .empty ↔
      policy.emptyTokens = .skip ∧ ∀ c ∈ rules, c = '|' := by
  rw [attributes_eq_empty_iff_forall_tokens, ← forall_tokens_eq_nil_iff]
  cases policy.emptyTokens with
  | fallback =>
    -- every token counts, and there is one
    obtain ⟨t, ts, hts⟩ := List.exists_cons_of_ne_nil (List.splitOn_ne_nil '|' rules)
    have hmem : t ∈ tokens rules := by
      rw [tokens, hts]
      exact List.mem_cons_self
    exact iff_of_false (fun h => h t hmem rfl) fun h => absurd h.1 (by decide)
  | skip => simp [EmptyTokens.admits]

/-! ### The two readings of empty tokens -/

/-- **How empty tokens are read shows at the bare stem only.** Whether they count or not, the other
attributes are the same in the same order. The bare stem is there if a token begins with a colon, or
if one is empty and empty tokens count; the last such token decides its value. And a field has no
attributes exactly if empty tokens are skipped and its rule text holds nothing but bars. -/
theorem empty_tokens_show_at_stem_only (colons : ColonReading) (rules : Text) :
    (attributes ⟨.fallback, colons⟩ rules).erase Attribute.stem =
      (attributes ⟨.skip, colons⟩ rules).erase Attribute.stem ∧
    (Attribute.stem ∈ (attributes ⟨.fallback, colons⟩ rules).keys ↔
      ∃ t ∈ tokens rules, t = [] ∨ t.head? = some ':') ∧
    (Attribute.stem ∈ (attributes ⟨.skip, colons⟩ rules).keys ↔
      ∃ t ∈ tokens rules, t.head? = some ':') ∧
    ∀ emptyTokens : EmptyTokens,
      (attributes ⟨emptyTokens, colons⟩ rules).get? Attribute.stem =
        ((tokens rules).filter emptyTokens.admitsUnnamed).getLast?.map colons.unnamedValue ∧
      (attributes ⟨emptyTokens, colons⟩ rules = .empty ↔
        emptyTokens = .skip ∧ ∀ c ∈ rules, c = '|') := by
  refine ⟨erase_attributes_fallback_eq_skip colons rules, ?_, ?_, fun emptyTokens =>
    ⟨get?_attributes_stem _ rules, attributes_eq_empty_iff _ rules⟩⟩
  · rw [mem_keys_attributes_iff]
    simp [← EmptyTokens.admitsUnnamed_iff, EmptyTokens.admitsUnnamed]
  · rw [mem_keys_attributes_iff]
    simp [← EmptyTokens.admitsUnnamed_iff, EmptyTokens.admitsUnnamed]

/-- An empty token writes over the arguments of the one before, unless it is skipped. -/
example :
    ((⟨.fallback, .keep⟩ : ReadingPolicy).attributes ":a,b:c|min:1|".toList).entries =
        [("data-parsley-".toList, " ".toList), ("data-parsley-minlength".toList, "1".toList)] ∧
      ((⟨.skip, .keep⟩ : ReadingPolicy).attributes ":a,b:c|min:1|".toList).entries =
        [("data-parsley-".toList, "a b:c".toList), ("data-parsley-minlength".toList, "1".toList)] := by
  decide +kernel

end ReadingPolicy

end FormRules
