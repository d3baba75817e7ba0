import FormRules.Proofs.Rule.Rendering

/-!
# The rules that a rule text can hold

Not every list of rules is the reading of a rule text: a name with a bar in it would be taken apart
when it is written, and a list of no slots has no written form at all. `Rule.WellFormed` says of a
single rule, and `ReadingPolicy.Yields` of a list, what is needed to be read from some text.

The condition is exact. What is read meets it (`wellFormed_ofToken` for one token,
`yields_ofText` for a rule text), and what meets it is read from its own written form
(`ofToken_token`, `ofText_textOf_of_yields`). The three written forms `name`, `name:` and `name:,`
stay apart on the way: they stand for two slots that hold nothing, one empty text and two empty texts.
-/

namespace FormRules

/-! ### Well-formed rules -/

/-- A text that can be an argument: it holds no bar and no comma, and no colon where a colon would cut
the blob. -/
structure ColonReading.Fits (colons : ColonReading) (value : Text) : Prop where
  /-- A bar would end the token. -/
  bar_notMem : '|' ∉ value
  /-- A comma would end the argument. -/
  comma_notMem : ',' ∉ value
  /-- A colon would end the blob. -/
  colon_notMem : colons = .truncate → ':' ∉ value

/-- A rule that can stand in a rule text: its name is free of bars and colons, and its arguments are
unset or texts that fit, of which there is at least one. -/
structure Rule.WellFormed (colons : ColonReading) (r : Rule) : Prop where
  /-- A bar would end the token. -/
  bar_notMem_name : '|' ∉ r.name
  /-- A colon would end the name. -/
  colon_notMem_name : ':' ∉ r.name
  /-- The arguments are unset, or they are texts. -/
  arguments : r.arguments = .unset ∨
    ∃ values, values ≠ [] ∧ (∀ value ∈ values, colons.Fits value) ∧ r.arguments = .ofValues values

/-- The lists of rules that a policy can read from some rule text: the rules are well formed; there
is one if empty tokens count as rules; and none is that of an empty token if these are skipped. -/
structure ReadingPolicy.Yields (policy : ReadingPolicy) (rs : List Rule) : Prop where
  /-- Each rule can stand in a rule text. -/
  wellFormed : ∀ r ∈ rs, r.WellFormed policy.colons
  /-- Even the empty text has one token. -/
  ne_nil : policy.emptyTokens = .fallback → rs ≠ []
  /-- No rule has an empty name and unset arguments. -/
  ne_emptyToken : policy.emptyTokens = .skip → ∀ r ∈ rs, r ≠ ⟨[], .unset⟩

/-- The slots of a well-formed rule: there are some, and all of them hold nothing or all hold a
text. -/
theorem Rule.WellFormed.exists_slots {colons : ColonReading} {r : Rule} (h : r.WellFormed colons) :
    ∃ slots, r.arguments = .slots slots ∧ slots ≠ [] ∧
      ((∀ slot ∈ slots, slot = none) ∨ ∀ slot ∈ slots, slot ≠ none) := by
  rcases h.arguments with harg | ⟨values, hne, -, harg⟩
  · exact ⟨[none, none], harg, List.cons_ne_nil _ _, Or.inl (by simp)⟩
  · refine ⟨values.map some, harg, fun hnil => hne (List.map_eq_nil_iff.mp hnil), Or.inr ?_⟩
    intro slot hslot
    obtain ⟨value, -, rfl⟩ := List.mem_map.mp hslot
    exact Option.some_ne_none value

/-! ### What is read is well formed -/

namespace ColonReading

variable (colons : ColonReading)

theorem blob_subset (t : Text) : colons.blob t ⊆ t := by
  cases colons with
  | truncate =>
    rw [blob, ← Text.before_zero]
    exact (Text.before_sublist ':' 0 t).subset
  | keep => exact List.Subset.refl t

/-- The arguments in a blob fit, if no bar stands in it. -/
theorem fits_of_mem_splitOn_blob {t value : Text} (h : '|' ∉ t)
    (hvalue : value ∈ (colons.blob t).splitOn ',') : colons.Fits value where
  bar_notMem hbar := h (colons.blob_subset t (Text.subset_of_mem_splitOn hvalue hbar))
  comma_notMem := Text.notMem_of_mem_splitOn hvalue
  colon_notMem := by
    rintro rfl hcolon
    exact Text.sep_notMem_cut ':' t (Text.subset_of_mem_splitOn hvalue hcolon)

/-- Texts that fit are not cut when they are joined to a blob. -/
theorem blob_join {values : List Text} (h : ∀ value ∈ values, colons.Fits value) :
    colons.blob (Text.join [','] values) = Text.join [','] values := by
  cases colons with
  | truncate =>
    rw [blob, Text.cut_of_notMem]
    intro hcolon
    rcases Text.mem_of_mem_join hcolon with hsep | ⟨value, hvalue, hmem⟩
    · exact absurd (List.mem_singleton.mp hsep) (by decide)
    · exact (h value hvalue).colon_notMem rfl hmem
  | keep => rfl

end ColonReading

namespace Rule

variable {colons : ColonReading} {policy : ReadingPolicy} {rs : List Rule}

/-- The rule of a token without a bar is well formed. -/
theorem wellFormed_ofToken {t : Text} (h : '|' ∉ t) : (ofToken colons t).WellFormed colons := by
  rcases Text.cut_cases ':' t with ⟨hfree, -⟩ | ⟨name, rest, hfree, rfl, -⟩
  · rw [ofToken_of_notMem colons hfree]
    exact ⟨h, hfree, Or.inl rfl⟩
  · rw [List.mem_append, List.mem_cons, not_or, not_or] at h
    obtain ⟨hname, -, hrest⟩ := h
    rw [ofToken_append_cons colons hfree]
    exact ⟨hname, hfree, Or.inr ⟨_, List.splitOn_ne_nil ',' (colons.blob rest),
      fun _ hvalue => colons.fits_of_mem_splitOn_blob hrest hvalue, rfl⟩⟩

/-- Only the empty token stands for an empty name with unset arguments. -/
theorem eq_nil_of_ofToken_eq {t : Text} (h : ofToken colons t = ⟨[], .unset⟩) : t = [] := by
  rcases Text.cut_cases ':' t with ⟨hfree, -⟩ | ⟨name, rest, hfree, rfl, -⟩
  · rw [ofToken_of_notMem colons hfree, Rule.mk.injEq] at h
    exact h.1
  · rw [ofToken_append_cons colons hfree, Rule.mk.injEq] at h
    exact absurd h.2 (Arguments.ofBlob_ne_unset _)

/-- What is read from a rule text can be read from a rule text in the sense of `Yields`. -/
theorem yields_ofText (policy : ReadingPolicy) (rules : Text) :
    policy.Yields (ofText policy rules) where
  wellFormed := by
    intro r hr
    obtain ⟨t, ht, rfl⟩ := List.mem_map.mp hr
    exact wellFormed_ofToken (Text.notMem_of_mem_splitOn (List.mem_filter.mp ht).1)
  ne_nil := by
    intro hfallback hnil
    rw [ofText, EmptyTokens.filter_admits, hfallback, List.map_eq_nil_iff] at hnil
    exact List.splitOn_ne_nil '|' rules hnil
  ne_emptyToken := by
    intro hskip r hr hempty
    obtain ⟨t, ht, rfl⟩ := List.mem_map.mp hr
    have hadmits := (List.mem_filter.mp ht).2
    rw [hskip, eq_nil_of_ofToken_eq hempty] at hadmits
    exact Bool.false_ne_true hadmits

/-! ### What is well formed is read -/

/-- A well-formed rule is read from its token. -/
theorem ofToken_token {r : Rule} (h : r.WellFormed colons) : ofToken colons r.token = r := by
  obtain ⟨name, arguments⟩ := r
  have hname : ':' ∉ name := h.colon_notMem_name
  rcases h.arguments with rfl | ⟨values, hne, hvalues, rfl⟩
  · rw [token, if_pos rfl, ofToken_of_notMem colons hname]
  · have hcommas : ∀ value ∈ values, ',' ∉ value := fun value hvalue =>
      (hvalues value hvalue).comma_notMem
    have hblob : Arguments.ofBlob (Text.join [','] values) = .ofValues values := by
      rw [Arguments.ofBlob, Text.splitOn_join hne hcommas]
    have hunset : Arguments.ofValues values ≠ .unset := by
      rw [← hblob]
      exact Arguments.ofBlob_ne_unset _
    rw [token, if_neg hunset, Arguments.joined, Arguments.texts_ofValues,
      ofToken_append_cons colons hname, colons.blob_join hvalues, hblob]

/-- The token of a well-formed rule has no bar in it. -/
theorem bar_notMem_token {r : Rule} (h : r.WellFormed colons) : '|' ∉ r.token := by
  obtain ⟨name, arguments⟩ := r
  have hname : '|' ∉ name := h.bar_notMem_name
  rw [token]
  split
  · exact hname
  · rename_i hunset
    rcases h.arguments with harg | ⟨values, -, hvalues, rfl⟩
    · exact absurd harg hunset
    · rw [Arguments.joined, Arguments.texts_ofValues, List.mem_append, List.mem_cons]
      rintro (hbar | hbar | hbar)
      · exact hname hbar
      · exact absurd hbar (by decide)
      · rcases Text.mem_of_mem_join hbar with hsep | ⟨value, hvalue, hmem⟩
        · exact absurd (List.mem_singleton.mp hsep) (by decide)
        · exact (hvalues value hvalue).bar_notMem hmem

/-- Only a rule with an empty name and unset arguments is written as the empty token. -/
theorem eq_of_token_eq_nil {r : Rule} (h : r.token = []) : r = ⟨[], .unset⟩ := by
  obtain ⟨name, arguments⟩ := r
  rw [token] at h
  split at h
  · rename_i hunset
    simp only at h hunset
    rw [h, hunset]
  · exact absurd (List.append_eq_nil_iff.mp h).2 (List.cons_ne_nil _ _)

/-- The tokens of the rules in `Yields` are all admitted. -/
theorem admits_token (h : policy.Yields rs) {r : Rule} (hr : r ∈ rs) :
    policy.emptyTokens.admits r.token = true := by
  cases hempty : policy.emptyTokens with
  | fallback => rfl
  | skip =>
    have hne : r.token ≠ [] := fun hnil => h.ne_emptyToken hempty r hr (eq_of_token_eq_nil hnil)
    simp [EmptyTokens.admits, hne]

/-- The tokens of a written list of rules are the tokens of its rules; a list of no rules is written
as one empty token. -/
theorem tokens_textOf (hne : rs ≠ []) (h : ∀ r ∈ rs, r.WellFormed colons) :
    tokens (textOf rs) = rs.map token := by
  refine Text.splitOn_join (fun hnil => hne (List.map_eq_nil_iff.mp hnil)) fun t ht => ?_
  obtain ⟨r, hr, rfl⟩ := List.mem_map.mp ht
  exact bar_notMem_token (h r hr)

/-- Rules that can be read from some rule text are read from their written form. -/
theorem ofText_textOf_of_yields (h : policy.Yields rs) :
    ofText policy (textOf rs) = rs := by
  by_cases hnil : rs = []
  · -- without rules the empty token must be skipped
    cases hempty : policy.emptyTokens with
    | fallback => exact absurd hnil (h.ne_nil hempty)
    | skip =>
      rw [hnil, ofText, hempty]
      rfl
  · have hadmits : (rs.map token).filter policy.emptyTokens.admits = rs.map token := by
      refine List.filter_eq_self.mpr fun t ht => ?_
      obtain ⟨r, hr, rfl⟩ := List.mem_map.mp ht
      exact admits_token h hr
    rw [ofText, tokens_textOf hnil h.wellFormed, hadmits, List.map_map]
    exact (List.map_congr_left fun r hr => ofToken_token (h.wellFormed r hr)).trans (List.map_id rs)

/-- **The rules that a rule text can hold** are those of `Yields`: what is read meets it, so every
rule has slots, and these all hold nothing or all hold a text; and a list of rules is read back from
its written form exactly if it meets it. -/
theorem ofText_yields_and_reads_back (policy : ReadingPolicy) :
    (∀ rules, policy.Yields (ofText policy rules)) ∧
    (∀ rules, ∀ r ∈ ofText policy rules, ∃ slots, r.arguments = .slots slots ∧ slots ≠ [] ∧
      ((∀ slot ∈ slots, slot = none) ∨ ∀ slot ∈ slots, slot ≠ none)) ∧
    ∀ rs, ofText policy (textOf rs) = rs ↔ policy.Yields rs := by
  refine ⟨yields_ofText policy, fun rules r hr => ?_, fun rs =>
    ⟨fun h => ?_, ofText_textOf_of_yields⟩⟩
  · exact ((yields_ofText policy rules).wellFormed r hr).exists_slots
  · rw [← h]
    exact yields_ofText policy _

/-- A name alone, with one empty argument and with two are three rules, and each is read back. -/
theorem yields_name_forms :
    (⟨.skip, .keep⟩ : ReadingPolicy).Yields
      [⟨['a'], .unset⟩, ⟨['a'], .ofValues [[]]⟩, ⟨['a'], .ofValues [[], []]⟩] ∧
    ∃ slots, Arguments.ofValues [[]] = .slots slots ∧ slots ≠ [] ∧
      ((∀ slot ∈ slots, slot = none) ∨ ∀ slot ∈ slots, slot ≠ none) := by
  obtain ⟨-, hslots, hback⟩ := ofText_yields_and_reads_back ⟨.skip, .keep⟩
  exact ⟨(hback _).mp (by decide), hslots "a:".toList ⟨['a'], .ofValues [[]]⟩ (by decide)⟩

end Rule

end FormRules
