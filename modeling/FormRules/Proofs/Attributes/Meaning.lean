import FormRules.Proofs.Attributes.Tokens
import FormRules.Proofs.Rule.Rendering
import FormRules.Proofs.Rule.Table

/-!
# What a token means

A token is read by taking its blob apart into slots, of which a value uses the first one or puts all
together again with another separator. The outcome can be said of the raw text of the blob, without any
slots: `Rule.Means` says for each name what is written, with values that are copies of the blob or of a
part of it, or rewrite its commas.

That both come to the same thing rests on one equation for each way in which a value uses the slots
(`slot_zero_ofBlob?`, `joined_comma_ofBlob?`, `joined_ofBlob?`). A token without a blob has two slots that
hold nothing; every value then reads as it does for the blob that is a single comma, so a slot that holds
nothing and one that holds the empty text cannot be told apart.
-/

namespace FormRules

/-- The first piece of a split text is what stands before the first separator. -/
theorem Text.getD_splitOn_zero (sep : Char) (t : Text) : (t.splitOn sep).getD 0 [] = (cut sep t).1 := by
  rcases cut_cases sep t with ⟨hfree, hcut⟩ | ⟨u, rest, hfree, rfl, hcut⟩
  · rw [List.splitOn_eq_singleton hfree, hcut]
    rfl
  · rw [List.splitOn_append_cons_self, List.splitOn_eq_singleton hfree, hcut]
    rfl

/-- The arguments in the blob of a token, if it has one. -/
def Arguments.ofBlob? : Option Text → Arguments
  | none => unset
  | some blob => ofBlob blob

namespace Rule

/-! ### Rewritten blobs -/

/-- A blob up to its first comma; nothing where there is no blob. -/
def upToComma : Option Text → Text
  | none => []
  | some blob => (Text.cut ',' blob).1

/-- A blob in square brackets; a comma in them where there is no blob. -/
def inBrackets : Option Text → Text
  | none => "[,]".toList
  | some blob => '[' :: blob ++ [']']

/-- A blob with some character for each of its commas; this character where there is no blob. -/
def commasAs (c : Char) : Option Text → Text
  | none => [c]
  | some blob => blob.map fun d => if d = ',' then c else d

theorem slot_zero_ofBlob? (blob : Option Text) : (Arguments.ofBlob? blob).slot 0 = upToComma blob := by
  cases blob with
  | none => rfl
  | some blob =>
    rw [Arguments.ofBlob?, Arguments.slot, Arguments.texts_ofBlob, Text.getD_splitOn_zero, upToComma]

theorem joined_comma_ofBlob? (blob : Option Text) :
    '[' :: (Arguments.ofBlob? blob).joined [','] ++ [']'] = inBrackets blob := by
  cases blob with
  | none => rfl
  | some blob => rw [Arguments.ofBlob?, Arguments.joined_comma_ofBlob, inBrackets]

theorem joined_ofBlob? (c : Char) (blob : Option Text) :
    (Arguments.ofBlob? blob).joined [c] = commasAs c blob := by
  cases blob with
  | none => rfl
  | some blob => rw [Arguments.ofBlob?, Arguments.joined_singleton_ofBlob, commasAs]

/-! ### Meanings -/

/-- The rules that write a fixed value: name, suffix and value. -/
def fixedRows : List (Text × Text × Text) := [
  ("required".toList, "required".toList, "true".toList),
  ("email".toList, "type".toList, "email".toList),
  ("url".toList, "type".toList, "url".toList),
  ("integer".toList, "type".toList, "integer".toList),
  ("numeric".toList, "type".toList, "integer".toList),
  ("alpha_num".toList, "type".toList, "alphanum".toList),
  ("alpha".toList, "pattern".toList, RecognizedRule.alphaPattern),
  ("alpha_dash".toList, "pattern".toList, RecognizedRule.alphaDashPattern),
  ("ip".toList, "pattern".toList, RecognizedRule.ipPattern),
  ("boolean".toList, "pattern".toList, "true|false|1|0".toList),
  ("accepted".toList, "pattern".toList, "yes|on|1|true".toList),
  ("string".toList, "pattern".toList, ".+".toList)]

/-- The rules that write the blob up to its first comma and nothing else: name and suffix. -/
def firstRows : List (Text × Text) := [
  ("max".toList, "maxlength".toList),
  ("min".toList, "minlength".toList),
  ("date_format".toList, "pattern".toList),
  ("regex".toList, "pattern".toList)]

/-- The rules that write the blob in square brackets and nothing else. -/
def bracketNames : List Text := ["between".toList, "size".toList]

/-- What a token of some name writes, said of the text of its blob: the suffixes in order, each with its
value. -/
inductive Means (blob : Option Text) : Text → List (Text × Text) → Prop where
  /-- A fixed value, whatever the blob. -/
  | fixed {name suffix value : Text} : (name, suffix, value) ∈ fixedRows →
      Means blob name [(suffix, value)]
  /-- The blob up to its first comma. -/
  | first {name suffix : Text} : (name, suffix) ∈ firstRows →
      Means blob name [(suffix, upToComma blob)]
  /-- The blob up to its first comma, behind the mark for what must not come. -/
  | different : Means blob "different".toList
      [("pattern".toList, "(?!".toList ++ upToComma blob ++ ").+".toList)]
  /-- The blob in square brackets. -/
  | inBrackets {name : Text} : name ∈ bracketNames →
      Means blob name [("length".toList, inBrackets blob)]
  /-- Digits, and the blob up to its first comma. -/
  | digits : Means blob "digits".toList
      [("type".toList, "digits".toList), ("maxlength".toList, upToComma blob)]
  /-- Digits, and the blob in square brackets. -/
  | digitsBetween : Means blob "digits_between".toList
      [("type".toList, "digits".toList), ("length".toList, Rule.inBrackets blob)]
  /-- The blob with bars for commas. -/
  | oneOf : Means blob "in".toList [("pattern".toList, commasAs '|' blob)]
  /-- The blob with bars for commas, behind the mark for what must not come. -/
  | noneOf : Means blob "not_id".toList
      [("pattern".toList, "(?!".toList ++ commasAs '|' blob ++ ").+".toList)]
  /-- A name that is not recognized, with the blob and spaces for its commas. -/
  | passed {name : Text} : name ∉ RecognizedRule.names →
      Means blob name [(name, commasAs ' ' blob)]

/-- Every recognized name is in one of the groups. -/
theorem group_of_mem_names :
    ∀ name ∈ RecognizedRule.names, name ∈ fixedRows.map Prod.fst ∨ name ∈ firstRows.map Prod.fst ∨
      name ∈ bracketNames ∨ name ∈ ["different".toList, "digits".toList, "digits_between".toList,
        "in".toList, "not_id".toList] := by
  decide

/-- Every token means something. -/
theorem exists_means (blob : Option Text) (name : Text) : ∃ written, Means blob name written := by
  by_cases hname : name ∈ RecognizedRule.names
  · rcases group_of_mem_names name hname with hfixed | hfirst | hbrackets | hother
    · obtain ⟨⟨_, suffix, value⟩, hrow, rfl⟩ := List.mem_map.mp hfixed
      exact ⟨_, .fixed hrow⟩
    · obtain ⟨⟨_, suffix⟩, hrow, rfl⟩ := List.mem_map.mp hfirst
      exact ⟨_, .first hrow⟩
    · exact ⟨_, .inBrackets hbrackets⟩
    · simp only [List.mem_cons, List.not_mem_nil, or_false] at hother
      rcases hother with rfl | rfl | rfl | rfl | rfl
      · exact ⟨_, .different⟩
      · exact ⟨_, .digits⟩
      · exact ⟨_, .digitsBetween⟩
      · exact ⟨_, .oneOf⟩
      · exact ⟨_, .noneOf⟩
  · exact ⟨_, .passed hname⟩

/-! ### Meanings and attributes -/

/-- The suffixes that a rule produces, each with its value. -/
def pairs (r : Rule) : List (Text × Text) := r.attributes.map fun a => (a.suffix, a.value)

/-- A recognized rule produces what its columns make of the arguments. -/
theorem pairs_of_columns {name : Text} {columns : List (Text × ValueForm)}
    (h : columnsOf name = some columns) (a : Arguments) :
    pairs ⟨name, a⟩ = columns.map fun c => (c.1, c.2.value a) := by
  rw [pairs, attributes, h]
  simp

theorem columnsOf_of_mem_fixedRows :
    ∀ row ∈ fixedRows, columnsOf row.1 = some [(row.2.1, .constant row.2.2)] := by
  decide +kernel

theorem columnsOf_of_mem_firstRows : ∀ row ∈ firstRows, columnsOf row.1 = some [(row.2, .first)] := by
  decide

theorem columnsOf_of_mem_bracketNames :
    ∀ name ∈ bracketNames, columnsOf name = some [("length".toList, .bracketed)] := by
  decide

/-- What a token means is what its rule produces. -/
theorem Means.pairs_eq {blob : Option Text} {name : Text} {written : List (Text × Text)}
    (h : Means blob name written) : pairs ⟨name, .ofBlob? blob⟩ = written := by
  have hfirst := slot_zero_ofBlob? blob
  have hbrackets := joined_comma_ofBlob? blob
  have hbars := joined_ofBlob? '|' blob
  cases h with
  | fixed hrow => exact pairs_of_columns (columnsOf_of_mem_fixedRows _ hrow) _
  | first hrow =>
    rw [pairs_of_columns (columnsOf_of_mem_firstRows _ hrow), ← hfirst]
    rfl
  | different =>
    have hcolumns : columnsOf "different".toList = some [("pattern".toList, .notFirst)] := rfl
    rw [pairs_of_columns hcolumns, ← hfirst]
    rfl
  | inBrackets hname =>
    rw [pairs_of_columns (columnsOf_of_mem_bracketNames _ hname), ← hbrackets]
    rfl
  | digits =>
    rw [← hfirst]
    rfl
  | digitsBetween =>
    rw [← hbrackets]
    rfl
  | oneOf =>
    rw [← hbars]
    rfl
  | noneOf =>
    rw [← hbars]
    rfl
  | passed hname =>
    rw [← joined_ofBlob? ' ' blob, pairs, attributes, columnsOf_eq_none hname]
    cases blob <;> rfl

/-- The rule of a token has the token's name, and the arguments in its blob. -/
theorem ofToken_eq (colons : ColonReading) (t : Text) :
    ofToken colons t = ⟨(Text.cut ':' t).1, .ofBlob? ((Text.cut ':' t).2.map colons.blob)⟩ := by
  unfold ofToken
  rcases Text.cut ':' t with ⟨name, _ | rest⟩ <;> rfl

/-- What a token writes is what it means, with the stem in front of each suffix. -/
theorem Means.writesOf_eq {colons : ColonReading} {t : Text} {written : List (Text × Text)}
    (h : Means ((Text.cut ':' t).2.map colons.blob) (Text.cut ':' t).1 written) :
    writesOf colons t = written.map fun w => (Attribute.stem ++ w.1, w.2) := by
  rw [← h.pairs_eq, ← ofToken_eq, writesOf, pairs, List.map_map]
  rfl

end Rule

namespace ReadingPolicy

/-- A rule text without a bar is its own only token. -/
theorem writes_of_bar_notMem (policy : ReadingPolicy) {t : Text} (hbar : '|' ∉ t)
    (hadmits : policy.emptyTokens.admits t = true) :
    policy.writes t = Rule.writesOf policy.colons t := by
  rw [writes_eq_flatMap_tokens, tokens, List.splitOn_eq_singleton hbar,
    List.filter_cons_of_pos hadmits, List.filter_nil, List.flatMap_singleton]

/-- A single token writes to no key twice, so its attributes are what it writes. -/
theorem entries_attributes_of_bar_notMem (policy : ReadingPolicy) {t : Text} (hbar : '|' ∉ t)
    (hadmits : policy.emptyTokens.admits t = true) :
    (policy.attributes t).entries = Rule.writesOf policy.colons t := by
  have hnodup : ((Rule.writesOf policy.colons t).map Prod.fst).Nodup := by
    rw [Rule.map_fst_writesOf, Rule.keysOf]
    exact (Rule.nodup_suffixes _).map fun _ _ h => List.append_cancel_left h
  rw [attributes, writes_of_bar_notMem policy hbar hadmits]
  exact OrderedMap.entries_insertAll_of_nodup OrderedMap.empty hnodup

/-- **A token means what its text says.** A field that is declared by a single token, which must not be
empty if empty tokens are skipped, has the attributes that the token means by its name and its blob: they
are written in the order of the row, and their values are rewritings of the blob. -/
theorem attributes_of_token (policy : ReadingPolicy) {t : Text} (hbar : '|' ∉ t)
    (hskip : policy.emptyTokens = .skip → t ≠ []) :
    let name := (Text.cut ':' t).1
    let blob := (Text.cut ':' t).2.map policy.colons.blob
    (∃ written, Rule.Means blob name written) ∧
      ∀ written, Rule.Means blob name written →
        (policy.attributes t).entries =
          written.map fun w => ("data-parsley-".toList ++ w.1, w.2) := by
  intro name blob
  have hadmits : policy.emptyTokens.admits t = true := by
    cases h : policy.emptyTokens with
    | fallback => rfl
    | skip => simpa [EmptyTokens.admits] using hskip h
  refine ⟨Rule.exists_means blob name, fun written h => ?_⟩
  rw [entries_attributes_of_bar_notMem policy hbar hadmits]
  exact h.writesOf_eq

/-- The brackets hold the whole blob, its empty pieces and its second colon included; without a blob
they hold a comma. -/
theorem attributes_of_token_in_brackets :
    ((⟨.skip, .keep⟩ : ReadingPolicy).attributes "digits_between:2,,a:b,".toList).entries =
        [("data-parsley-type".toList, "digits".toList),
          ("data-parsley-length".toList, "[2,,a:b,]".toList)] ∧
      ((default : ReadingPolicy).attributes "size".toList).entries =
        [("data-parsley-length".toList, "[,]".toList)] := by
  obtain ⟨-, hkeep⟩ := attributes_of_token ⟨.skip, .keep⟩ (t := "digits_between:2,,a:b,".toList)
    (by decide) (by decide)
  obtain ⟨-, hunset⟩ := attributes_of_token default (t := "size".toList) (by decide) (by decide)
  exact ⟨hkeep _ .digitsBetween, hunset _ (.inBrackets (by decide))⟩

end ReadingPolicy

end FormRules
