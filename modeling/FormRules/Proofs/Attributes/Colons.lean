import FormRules.Proofs.Attributes.Tokens
import FormRules.Proofs.Rule.Rendering

/-!
# How colons are read and what it changes

Two policies that differ only in the reading of colons read the same names from the same tokens, so
they write to the same keys in the same order and the same token is the last writer at each key. A
token that is cut before its second colon stands for the same rule under both
(`ofToken_keep_kept`), and so does a token that has no second colon
(`ofToken_eq_of_count_colon_lt`). The values can therefore differ only where the last writer has two
colons or more.
-/

namespace FormRules

/-- A separator of number `n` that does not occur cuts nothing. -/
theorem Text.before_of_count_le {sep : Char} {n : Nat} {t : Text} (h : t.count sep ≤ n) :
    before sep n t = t := by
  induction n generalizing t with
  | zero => exact before_of_notMem (List.count_eq_zero.mp (Nat.le_zero.mp h)) 0
  | succ n ih =>
    rcases cut_cases sep t with ⟨hfree, -⟩ | ⟨u, rest, hfree, rfl, -⟩
    · exact before_of_notMem hfree _
    · rw [List.count_append, List.count_cons_self] at h
      rw [before_succ_append_cons hfree, ih (by omega)]

namespace Rule

/-- The kept part of a token, read with all its colons, stands for the rule of the token. -/
theorem ofToken_keep_kept (colons : ColonReading) (t : Text) :
    ofToken .keep (colons.kept t) = ofToken colons t := by
  rcases Text.cut_cases ':' t with ⟨h, -⟩ | ⟨name, rest, h, rfl, -⟩
  · rw [colons.kept_of_notMem h, ofToken_of_notMem _ h, ofToken_of_notMem _ h]
  · rw [colons.kept_append_cons h, ofToken_append_cons _ h, ofToken_append_cons _ h]
    rfl

/-- A token with at most one colon stands for one rule, however its colons are read. -/
theorem ofToken_eq_of_count_colon_lt {t : Text} (h : t.count ':' < 2) :
    ofToken .truncate t = ofToken .keep t := by
  have hkept : ColonReading.kept .truncate t = t := Text.before_of_count_le (Nat.le_of_lt_succ h)
  rw [← ofToken_keep_kept .truncate, hkept]

/-- A rule text with each of its tokens cut before the second colon. -/
def cutTokens (rules : Text) : Text := Text.join ['|'] ((tokens rules).map (Text.before ':' 1))

/-- The tokens of the cut text are the cut tokens. -/
theorem tokens_cutTokens (rules : Text) :
    tokens (cutTokens rules) = (tokens rules).map (Text.before ':' 1) := by
  have h := admitted_tokens_kept ⟨.fallback, .truncate⟩ rules
  rwa [EmptyTokens.filter_admits] at h

end Rule

namespace ReadingPolicy

open Rule (cutTokens)

variable (emptyTokens : EmptyTokens) (rules : Text)

/-- A cut token counts if the token does. -/
theorem admits_before (t : Text) :
    emptyTokens.admits (Text.before ':' 1 t) = emptyTokens.admits t := by
  cases emptyTokens with
  | fallback => rfl
  | skip =>
    cases t with
    | nil => rw [Text.before_nil]
    | cons c t => rfl

/-- The cut text, read with all its colons, has the rules of the text. -/
theorem ofText_keep_cutTokens :
    Rule.ofText ⟨emptyTokens, .keep⟩ (cutTokens rules) =
      Rule.ofText ⟨emptyTokens, .truncate⟩ rules := by
  have hadmits : emptyTokens.admits ∘ Text.before ':' 1 = emptyTokens.admits :=
    funext fun t => admits_before emptyTokens t
  have hrule : Rule.ofToken .keep ∘ Text.before ':' 1 = Rule.ofToken .truncate :=
    funext fun t => Rule.ofToken_keep_kept .truncate t
  rw [Rule.ofText, Rule.tokens_cutTokens, List.filter_map, hadmits, List.map_map, hrule, Rule.ofText]

/-- Both readings of colons write to the same keys in the same order. -/
theorem keys_attributes_truncate_eq_keep :
    (attributes ⟨emptyTokens, .truncate⟩ rules).keys =
      (attributes ⟨emptyTokens, .keep⟩ rules).keys := by
  rw [attributes, attributes, (OrderedMap.records_ofList _).keys, (OrderedMap.records_ofList _).keys,
    map_fst_writes, map_fst_writes]

/-- Where both readings of colons give different values, the last token that writes there has a second
colon. -/
theorem exists_lastWriter_of_get?_ne {k : Text}
    (h : (attributes ⟨emptyTokens, .truncate⟩ rules).get? k ≠
      (attributes ⟨emptyTokens, .keep⟩ rules).get? k) :
    ∃ token, emptyTokens.LastWriter (tokens rules) k token ∧ 2 ≤ token.count ':' := by
  rcases EmptyTokens.lastWriter_cases emptyTokens (tokens rules) k with ⟨token, hlast⟩ | hidle
  · refine ⟨token, hlast, Nat.le_of_not_lt fun hcount => h ?_⟩
    have htruncate := get?_attributes_of_lastWriter ⟨emptyTokens, .truncate⟩ hlast
    have hkeep := get?_attributes_of_lastWriter ⟨emptyTokens, .keep⟩ hlast
    rw [htruncate, hkeep, Rule.writesOf, Rule.writesOf, Rule.ofToken_eq_of_count_colon_lt hcount]
  · have htruncate := get?_attributes_of_no_writer ⟨emptyTokens, .truncate⟩ hidle
    have hkeep := get?_attributes_of_no_writer ⟨emptyTokens, .keep⟩ hidle
    exact absurd (htruncate.trans hkeep.symm) h

/-- **How colons are read changes values only.** Cutting the blobs is the same as reading, with all
their colons, tokens that were cut before; the keys and their order are the same under both readings;
and the values at a key differ only if the last token that writes to it has two colons or more. -/
theorem colon_reading_changes_values_only :
    attributes ⟨emptyTokens, .truncate⟩ rules = attributes ⟨emptyTokens, .keep⟩ (cutTokens rules) ∧
    (attributes ⟨emptyTokens, .truncate⟩ rules).keys =
      (attributes ⟨emptyTokens, .keep⟩ rules).keys ∧
    ∀ k, (attributes ⟨emptyTokens, .truncate⟩ rules).get? k ≠
        (attributes ⟨emptyTokens, .keep⟩ rules).get? k →
      ∃ token, emptyTokens.LastWriter (tokens rules) k token ∧ 2 ≤ token.count ':' := by
  refine ⟨?_, keys_attributes_truncate_eq_keep emptyTokens rules, fun k h => ?_⟩
  · rw [attributes, attributes, writes, writes, ofText_keep_cutTokens]
  · exact exists_lastWriter_of_get?_ne emptyTokens rules h

/-- The last rule is the pattern that is written, and its second colon makes the difference. -/
theorem colon_reading_of_date_format :
    ((⟨.skip, .truncate⟩ : ReadingPolicy).attributes "regex:a||date_format:H:i".toList).get?
        "data-parsley-pattern".toList ≠
      ((⟨.skip, .keep⟩ : ReadingPolicy).attributes "regex:a||date_format:H:i".toList).get?
        "data-parsley-pattern".toList ∧
    ∃ token, EmptyTokens.skip.LastWriter (tokens "regex:a||date_format:H:i".toList)
      "data-parsley-pattern".toList token ∧ 2 ≤ token.count ':' := by
  have hne : ((⟨.skip, .truncate⟩ : ReadingPolicy).attributes "regex:a||date_format:H:i".toList).get?
        "data-parsley-pattern".toList ≠
      ((⟨.skip, .keep⟩ : ReadingPolicy).attributes "regex:a||date_format:H:i".toList).get?
        "data-parsley-pattern".toList := by
    decide
  exact ⟨hne, (colon_reading_changes_values_only .skip "regex:a||date_format:H:i".toList).2.2 _ hne⟩

end ReadingPolicy

end FormRules
