import FormRules.Attributes.Basic
import FormRules.Proofs.OrderedMap.Records

/-!
# Tokens as writers of attributes

The attributes of a field are written token by token. Which keys a token writes to is decided by its
name, the text before its first colon, since the suffixes of a rule hang on its name alone
(`map_fst_writesOf`); what it writes there also depends on how its colons are read.

At each key the last token that writes to it decides the value, whatever the tokens before it wrote
(`get?_attributes_of_lastWriter`), and a key without a writer has no value. Who is last can be said by
the tokens behind (`LastWriter`), by a place in the list (`lastWriter_iff_getElem`), or by leaving out
the tokens that do not write to the key (`lastWriter_of_getLast?_filter`).
-/

namespace FormRules

namespace Rule

/-! ### What a token writes -/

/-- The keys that a token writes to. -/
def keysOf (token : Text) : List Text :=
  (suffixes (Text.cut ':' token).1).map (Attribute.stem ++ ·)

/-- What a token writes, one key and value after the other. -/
def writesOf (colons : ColonReading) (token : Text) : List (Text × Text) :=
  (ofToken colons token).attributes.map fun a => (a.key, a.value)

/-- The keys that a token writes to hang on its name, not on how its colons are read. -/
theorem map_fst_writesOf (colons : ColonReading) (token : Text) :
    (writesOf colons token).map Prod.fst = keysOf token := by
  rw [keysOf, ← name_ofToken colons, ← map_suffix_attributes, writesOf, List.map_map, List.map_map]
  rfl

/-- The keys that several tokens write to in turn. -/
theorem map_fst_flatMap_writesOf (colons : ColonReading) (ts : List Text) :
    (ts.flatMap (writesOf colons)).map Prod.fst = ts.flatMap keysOf := by
  rw [List.map_flatMap]
  exact congrArg ts.flatMap (funext fun t => map_fst_writesOf colons t)

end Rule

namespace EmptyTokens

variable {emptyTokens : EmptyTokens} {ts : List Text} {k token : Text}

/-! ### Last writers -/

/-- A token that counts, and that writes to a key. -/
def Writes (emptyTokens : EmptyTokens) (token k : Text) : Prop :=
  emptyTokens.admits token = true ∧ k ∈ Rule.keysOf token

instance : Decidable (emptyTokens.Writes token k) :=
  inferInstanceAs (Decidable (emptyTokens.admits token = true ∧ k ∈ Rule.keysOf token))

/-- The last of some tokens that writes to a key. -/
def LastWriter (emptyTokens : EmptyTokens) (ts : List Text) (k token : Text) : Prop :=
  ∃ before after, ts = before ++ token :: after ∧ emptyTokens.Writes token k ∧
    ∀ t ∈ after, ¬ emptyTokens.Writes t k

/-- Some token is the last writer to a key, or no token writes to it. -/
theorem lastWriter_cases (emptyTokens : EmptyTokens) (ts : List Text) (k : Text) :
    (∃ token, emptyTokens.LastWriter ts k token) ∨ ∀ t ∈ ts, ¬ emptyTokens.Writes t k := by
  induction ts with
  | nil => exact Or.inr fun _ ht => absurd ht List.not_mem_nil
  | cons first ts ih =>
    rcases ih with ⟨token, before, after, rfl, hlast⟩ | hidle
    · exact Or.inl ⟨token, first :: before, after, rfl, hlast⟩
    · by_cases hw : emptyTokens.Writes first k
      · exact Or.inl ⟨first, [], ts, rfl, hw, hidle⟩
      · exact Or.inr (List.forall_mem_cons.mpr ⟨hw, hidle⟩)

/-- The last token of those that write to a key is the last writer there. -/
theorem lastWriter_of_getLast?_filter {p : Text → Bool}
    (hp : ∀ t, p t = true ↔ emptyTokens.Writes t k) (h : (ts.filter p).getLast? = some token) :
    emptyTokens.LastWriter ts k token := by
  obtain ⟨writers, hwriters⟩ := List.getLast?_eq_some_iff.mp h
  obtain ⟨before, later, rfl, -, hlater⟩ := List.filter_eq_append_iff.mp hwriters
  obtain ⟨idle, after, rfl, -, htoken, hafter⟩ := List.filter_eq_cons_iff.mp hlater
  refine ⟨before ++ idle, after, (List.append_assoc ..).symm, (hp token).mp htoken, ?_⟩
  intro t ht hw
  exact List.filter_eq_nil_iff.mp hafter t ht ((hp t).mpr hw)

/-- The last writer stands at a place behind which no token writes to the key. -/
theorem lastWriter_iff_getElem :
    emptyTokens.LastWriter ts k token ↔ ∃ i : Fin ts.length, ts[i] = token ∧
      emptyTokens.Writes ts[i] k ∧ ∀ j : Fin ts.length, i < j → ¬ emptyTokens.Writes ts[j] k := by
  constructor
  · rintro ⟨before, after, rfl, hw, hafter⟩
    refine ⟨⟨before.length, by simp⟩, by simp, by simpa using hw, fun j hj => hafter _ ?_⟩
    have hlt : before.length < j.val := hj
    have hlength : j.val < before.length + (after.length + 1) := by simpa using j.isLt
    obtain ⟨n, hn⟩ : ∃ n, j.val = before.length + (n + 1) := ⟨j.val - before.length - 1, by omega⟩
    have hbound : n < after.length := by omega
    have hitem : (before ++ token :: after)[j] = after[n] := by simp [hn]
    rw [hitem]
    exact List.getElem_mem hbound
  · rintro ⟨i, rfl, hw, hlater⟩
    refine ⟨ts.take i, ts.drop (i + 1), ?_, hw, fun t ht => ?_⟩
    · have hdrop : ts.drop i = ts[i] :: ts.drop (i + 1) := List.drop_eq_getElem_cons i.isLt
      rw [← hdrop, List.take_append_drop]
    · obtain ⟨n, hn, rfl⟩ := List.mem_iff_getElem.mp ht
      rw [List.length_drop] at hn
      have hplace := hlater ⟨i + 1 + n, by omega⟩ (Fin.mk_lt_mk.mpr (by omega))
      rw [List.getElem_drop]
      exact hplace

/-- Tokens in front do not change who is last. -/
theorem LastWriter.append_left (h : emptyTokens.LastWriter ts k token) (ts' : List Text) :
    emptyTokens.LastWriter (ts' ++ ts) k token := by
  obtain ⟨before, after, rfl, hw, hafter⟩ := h
  exact ⟨ts' ++ before, after, (List.append_assoc ..).symm, hw, hafter⟩

/-- Tokens behind that do not write to the key do not change who is last. -/
theorem LastWriter.append_right (h : emptyTokens.LastWriter ts k token) {ts' : List Text}
    (hidle : ∀ t ∈ ts', ¬ emptyTokens.Writes t k) : emptyTokens.LastWriter (ts ++ ts') k token := by
  obtain ⟨before, after, rfl, hw, hafter⟩ := h
  refine ⟨before, after ++ ts', by rw [List.append_assoc, List.cons_append], hw, fun t ht => ?_⟩
  exact (List.mem_append.mp ht).elim (hafter t) (hidle t)

end EmptyTokens

namespace ReadingPolicy

variable {rules : Text}

/-! ### What the tokens of a rule text write -/

/-- The writes of a rule text are those of its tokens that count. -/
theorem writes_eq_flatMap_tokens (policy : ReadingPolicy) (rules : Text) :
    policy.writes rules =
      ((tokens rules).filter policy.emptyTokens.admits).flatMap (Rule.writesOf policy.colons) := by
  rw [writes, Rule.ofText, List.flatMap_map]
  rfl

/-- The keys that a rule text writes to, in order, are those of its tokens that count. -/
theorem map_fst_writes (policy : ReadingPolicy) (rules : Text) :
    (policy.writes rules).map Prod.fst =
      ((tokens rules).filter policy.emptyTokens.admits).flatMap Rule.keysOf := by
  rw [writes_eq_flatMap_tokens, Rule.map_fst_flatMap_writesOf]

/-- The keys of a list of tokens hold a key if one of the tokens that count writes to it. -/
theorem mem_flatMap_keysOf_iff {emptyTokens : EmptyTokens} {ts : List Text} {k : Text} :
    k ∈ (ts.filter emptyTokens.admits).flatMap Rule.keysOf ↔
      ∃ t ∈ ts, emptyTokens.Writes t k := by
  simp only [List.mem_flatMap, List.mem_filter, EmptyTokens.Writes, and_assoc]

/-- The keys of a field's attributes are those that some token writes to. -/
theorem mem_keys_attributes_iff (policy : ReadingPolicy) (rules k : Text) :
    k ∈ (policy.attributes rules).keys ↔ ∃ t ∈ tokens rules, policy.emptyTokens.Writes t k := by
  rw [attributes, (OrderedMap.records_ofList _).mem_keys_iff, map_fst_writes, mem_flatMap_keysOf_iff]

/-- The value at a key is what the last token that writes to it writes there. -/
theorem get?_attributes_of_lastWriter (policy : ReadingPolicy) {k token : Text}
    (h : policy.emptyTokens.LastWriter (tokens rules) k token) :
    (policy.attributes rules).get? k =
      (OrderedMap.ofList (Rule.writesOf policy.colons token)).get? k := by
  obtain ⟨before, after, hts, ⟨hadmits, hk⟩, hlast⟩ := h
  have hafter : k ∉ ((after.filter policy.emptyTokens.admits).flatMap
      (Rule.writesOf policy.colons)).map Prod.fst := by
    rw [Rule.map_fst_flatMap_writesOf, mem_flatMap_keysOf_iff]
    rintro ⟨t, ht, hw⟩
    exact hlast t ht hw
  rw [← Rule.map_fst_writesOf policy.colons] at hk
  rw [attributes, OrderedMap.ofList, writes_eq_flatMap_tokens, hts, List.filter_append,
    List.filter_cons_of_pos hadmits, List.flatMap_append, List.flatMap_cons,
    OrderedMap.insertAll_append, OrderedMap.insertAll_append,
    OrderedMap.get?_insertAll_of_notMem _ hafter]
  exact OrderedMap.get?_insertAll_of_mem _ _ hk

/-- A key that no token writes to has no value. -/
theorem get?_attributes_of_no_writer (policy : ReadingPolicy) {k : Text}
    (h : ∀ t ∈ tokens rules, ¬ policy.emptyTokens.Writes t k) :
    (policy.attributes rules).get? k = none := by
  have hk : k ∉ (policy.writes rules).map Prod.fst := by
    rw [map_fst_writes, mem_flatMap_keysOf_iff]
    rintro ⟨t, ht, hw⟩
    exact h t ht hw
  rw [attributes, OrderedMap.ofList, OrderedMap.get?_insertAll_of_notMem _ hk]
  rfl

end ReadingPolicy

end FormRules
