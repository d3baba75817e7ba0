import FormRules.Rule.Basic
import FormRules.Proofs.Rule.Arguments

/-!
# Writing rules that were read

Reading a rule text and writing the rules again gives the text back, except for what the policy
drops on purpose: the empty tokens if it skips them, and what stands behind the second colon of a
token if it cuts the blob there. `ReadingPolicy.kept` says so without reading any rule.

The three separators are taken apart and put together at three levels: bars between tokens, one
colon between name and blob, commas between arguments. At each level the pieces are free of the separator,
so what was written is taken apart into the same pieces again (`ofToken_kept` for one token,
`admitted_tokens_kept` for a rule text).
-/

namespace FormRules

/-! ### What a policy keeps of a text -/

/-- The part of a token that is kept: what stands before its second colon, or all of it. -/
def ColonReading.kept : ColonReading → Text → Text
  | .truncate, token => Text.before ':' 1 token
  | .keep, token => token

/-- The tokens that are kept: those that are not empty, or all of them. -/
def EmptyTokens.kept : EmptyTokens → List Text → List Text
  | .fallback, tokens => tokens
  | .skip, tokens => tokens.filter fun token => token ≠ []

/-- The part of a rule text that is kept: the kept parts of the kept tokens, with bars between
them. -/
def ReadingPolicy.kept (policy : ReadingPolicy) (rules : Text) : Text :=
  Text.join ['|'] ((policy.emptyTokens.kept (tokens rules)).map policy.colons.kept)

namespace ColonReading

variable (colons : ColonReading)

theorem kept_of_notMem {t : Text} (h : ':' ∉ t) : colons.kept t = t := by
  cases colons with
  | truncate => exact Text.before_of_notMem h 1
  | keep => rfl

theorem kept_append_cons {name : Text} (h : ':' ∉ name) (rest : Text) :
    colons.kept (name ++ ':' :: rest) = name ++ ':' :: colons.blob rest := by
  cases colons with
  | truncate => rw [kept, Text.before_succ_append_cons h, Text.before_zero, blob]
  | keep => rfl

/-- The blob of a blob is all of it. -/
theorem blob_blob (t : Text) : colons.blob (colons.blob t) = colons.blob t := by
  cases colons with
  | truncate => rw [blob, blob, Text.cut_of_notMem (Text.sep_notMem_cut ':' t)]
  | keep => rfl

theorem kept_sublist (t : Text) : (colons.kept t).Sublist t := by
  cases colons with
  | truncate => exact Text.before_sublist ':' 1 t
  | keep => exact List.Sublist.refl t

/-- A token that is not empty is not cut to an empty one: its first colon stays. -/
theorem kept_ne_nil {t : Text} (h : t ≠ []) : colons.kept t ≠ [] := by
  rcases Text.cut_cases ':' t with ⟨hfree, -⟩ | ⟨name, rest, hfree, rfl, -⟩
  · rw [colons.kept_of_notMem hfree]
    exact h
  · rw [colons.kept_append_cons hfree]
    exact List.append_ne_nil_of_right_ne_nil name (List.cons_ne_nil _ _)

end ColonReading

namespace EmptyTokens

variable (emptyTokens : EmptyTokens)

theorem filter_admits (ts : List Text) : ts.filter emptyTokens.admits = emptyTokens.kept ts := by
  cases emptyTokens with
  | fallback => exact List.filter_eq_self.mpr fun _ _ => rfl
  | skip =>
    refine List.filter_congr fun token _ => ?_
    cases token <;> rfl

theorem kept_subset (ts : List Text) : emptyTokens.kept ts ⊆ ts := by
  cases emptyTokens with
  | fallback => exact List.Subset.refl ts
  | skip => exact List.filter_sublist.subset

/-- Kept tokens that are cut to their kept parts are kept again. -/
theorem kept_map_kept (colons : ColonReading) (ts : List Text) :
    emptyTokens.kept ((emptyTokens.kept ts).map colons.kept) =
      (emptyTokens.kept ts).map colons.kept := by
  cases emptyTokens with
  | fallback => rfl
  | skip =>
    refine List.filter_eq_self.mpr fun token htoken => decide_eq_true ?_
    obtain ⟨t, ht, rfl⟩ := List.mem_map.mp htoken
    exact colons.kept_ne_nil (of_decide_eq_true (List.mem_filter.mp ht).2)

end EmptyTokens

namespace Rule

variable (colons : ColonReading)

/-! ### One token -/

/-- A token without a colon is a name. -/
theorem ofToken_of_notMem {t : Text} (h : ':' ∉ t) : ofToken colons t = ⟨t, .unset⟩ := by
  rw [ofToken, Text.cut_of_notMem h]

/-- A token with a colon is a name and a blob. -/
theorem ofToken_append_cons {name : Text} (h : ':' ∉ name) (rest : Text) :
    ofToken colons (name ++ ':' :: rest) = ⟨name, .ofBlob (colons.blob rest)⟩ := by
  rw [ofToken, Text.cut_append_cons h]

/-- The rule that a token stands for is written as the kept part of the token. -/
theorem token_ofToken (t : Text) : (ofToken colons t).token = colons.kept t := by
  rcases Text.cut_cases ':' t with ⟨h, -⟩ | ⟨name, rest, h, rfl, -⟩
  · rw [ofToken_of_notMem colons h, colons.kept_of_notMem h, token, if_pos rfl]
  · rw [ofToken_append_cons colons h, colons.kept_append_cons h, token,
      if_neg (Arguments.ofBlob_ne_unset _), Arguments.joined_comma_ofBlob]

/-- The kept part of a token stands for the same rule. -/
theorem ofToken_kept (t : Text) : ofToken colons (colons.kept t) = ofToken colons t := by
  rcases Text.cut_cases ':' t with ⟨h, -⟩ | ⟨name, rest, h, rfl, -⟩
  · rw [colons.kept_of_notMem h]
  · rw [colons.kept_append_cons h, ofToken_append_cons colons h, ofToken_append_cons colons h,
      colons.blob_blob]

/-! ### Rule texts -/

variable (policy : ReadingPolicy) (rules : Text)

/-- The rules of a rule text are written as the kept part of the text. -/
theorem textOf_ofText_eq_kept : textOf (ofText policy rules) = policy.kept rules := by
  have htoken : token ∘ ofToken policy.colons = policy.colons.kept :=
    funext fun t => token_ofToken policy.colons t
  rw [textOf, ofText, List.map_map, htoken, EmptyTokens.filter_admits, ReadingPolicy.kept]

/-- The kept part of a rule text is taken apart into the kept parts of the kept tokens. -/
theorem admitted_tokens_kept :
    (tokens (policy.kept rules)).filter policy.emptyTokens.admits =
      (policy.emptyTokens.kept (tokens rules)).map policy.colons.kept := by
  rw [EmptyTokens.filter_admits, ReadingPolicy.kept]
  by_cases hnil : policy.emptyTokens.kept (tokens rules) = []
  · -- nothing is kept, so the empty tokens are skipped, also the one that is left
    rw [hnil]
    cases h : policy.emptyTokens with
    | fallback =>
      rw [h] at hnil
      exact absurd hnil (List.splitOn_ne_nil '|' rules)
    | skip => rfl
  · have hfree : ∀ token ∈ (policy.emptyTokens.kept (tokens rules)).map policy.colons.kept,
        '|' ∉ token := by
      intro token htoken
      obtain ⟨t, ht, rfl⟩ := List.mem_map.mp htoken
      have htokens := policy.emptyTokens.kept_subset _ ht
      exact fun hmem =>
        Text.notMem_of_mem_splitOn htokens ((policy.colons.kept_sublist t).subset hmem)
    have hne : (policy.emptyTokens.kept (tokens rules)).map policy.colons.kept ≠ [] :=
      fun h => hnil (List.map_eq_nil_iff.mp h)
    rw [tokens, Text.splitOn_join hne hfree, EmptyTokens.kept_map_kept]

/-- The kept part of a rule text has the same rules. -/
theorem ofText_kept : ofText policy (policy.kept rules) = ofText policy rules := by
  have htoken : ofToken policy.colons ∘ policy.colons.kept = ofToken policy.colons :=
    funext fun t => ofToken_kept policy.colons t
  rw [ofText, admitted_tokens_kept, List.map_map, htoken, ofText, EmptyTokens.filter_admits]

/-- The policy that skips nothing and cuts nothing keeps the whole text. -/
theorem kept_fallback_keep : ReadingPolicy.kept ⟨.fallback, .keep⟩ rules = rules := by
  have hkept : ColonReading.kept .keep = id := rfl
  rw [ReadingPolicy.kept, EmptyTokens.kept, hkept, List.map_id, tokens, Text.join_splitOn]

/-- **Reading loses only what the policy drops.** The rules of a rule text are written as its kept
part; that is the whole text, and the rules determine it, if the policy drops nothing; and under any
policy the rules that are written and read again are the same. -/
theorem textOf_ofText_round_trip :
    (∀ rules, textOf (ofText policy rules) = policy.kept rules) ∧
    (∀ rules, textOf (ofText ⟨.fallback, .keep⟩ rules) = rules) ∧
    Function.Injective (ofText ⟨.fallback, .keep⟩) ∧
    ∀ rules, ofText policy (textOf (ofText policy rules)) = ofText policy rules := by
  have hwhole : ∀ rules, textOf (ofText ⟨.fallback, .keep⟩ rules) = rules := fun rules => by
    rw [textOf_ofText_eq_kept, kept_fallback_keep]
  refine ⟨textOf_ofText_eq_kept policy, hwhole, fun rules rules' h => ?_, fun rules => ?_⟩
  · rw [← hwhole rules, ← hwhole rules', h]
  · rw [textOf_ofText_eq_kept, ofText_kept]

/-- The bars at the end and the third colon are dropped, the first colon and the commas stay. -/
example : textOf (ofText ⟨.skip, .truncate⟩ "a:,||::x|b:c:d:e|".toList) = "a:,|:|b:c".toList := by
  decide

end Rule

end FormRules
