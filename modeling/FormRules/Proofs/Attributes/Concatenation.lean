import FormRules.Proofs.Attributes.Tokens
import FormRules.Proofs.OrderedMap.Algebra

/-!
# Rule texts with a bar between them

A bar between two rule texts separates their tokens and does nothing else: the tokens of the whole are
those of the first text and then those of the second, also where a text is empty or has a bar at one
of its ends (`tokens_append_bar`). So the second text writes on where the first one stopped, and since
what it writes may be collapsed to a map before (`OrderedMap.merge_ofList`), the attributes of the
whole are a function of the attributes of the two parts.
-/

namespace FormRules

/-- The tokens of two rule texts with a bar between them. -/
theorem tokens_append_bar (a b : Text) : tokens (a ++ '|' :: b) = tokens a ++ tokens b :=
  List.splitOn_append_cons_self a b

namespace ReadingPolicy

variable (policy : ReadingPolicy) (a b : Text)

/-- Two rule texts with a bar between them write what the first writes and then what the second
writes. -/
theorem writes_append_bar :
    policy.writes (a ++ '|' :: b) = policy.writes a ++ policy.writes b := by
  rw [writes_eq_flatMap_tokens, tokens_append_bar, List.filter_append, List.flatMap_append,
    ← writes_eq_flatMap_tokens, ← writes_eq_flatMap_tokens]

theorem attributes_append_bar_eq_merge :
    policy.attributes (a ++ '|' :: b) = (policy.attributes a).merge (policy.attributes b) := by
  rw [attributes, writes_append_bar, OrderedMap.ofList, OrderedMap.insertAll_append]
  exact (OrderedMap.merge_ofList (policy.attributes a) (policy.writes b)).symm

/-- **Rule texts with a bar between them are read one over the other.** The attributes of the whole
are those of the first text overwritten by those of the second: the keys of the first in their order
and then the new keys of the second in theirs, with the value of the second where it has one. So a rule
text that is repeated changes nothing, and rules that are added neither remove nor move a key. -/
theorem attributes_append_bar :
    policy.attributes (a ++ '|' :: b) = (policy.attributes a).merge (policy.attributes b) ∧
    (policy.attributes (a ++ '|' :: b)).keys =
      (policy.attributes a).keys ++
        (policy.attributes b).keys.filter (· ∉ (policy.attributes a).keys) ∧
    (∀ k, (policy.attributes (a ++ '|' :: b)).get? k =
      ((policy.attributes b).get? k).or ((policy.attributes a).get? k)) ∧
    policy.attributes (a ++ '|' :: a) = policy.attributes a ∧
    (policy.attributes a).keys <+: (policy.attributes (a ++ '|' :: b)).keys := by
  have hkeys := OrderedMap.keys_merge (policy.attributes a) (policy.attributes b)
  rw [← attributes_append_bar_eq_merge] at hkeys
  refine ⟨attributes_append_bar_eq_merge policy a b, ?_, fun k => ?_, ?_, ?_⟩
  · convert hkeys
  · rw [attributes_append_bar_eq_merge, OrderedMap.get?_merge]
  · rw [attributes_append_bar_eq_merge, OrderedMap.merge_self]
  · rw [hkeys]
    exact List.prefix_append _ _

/-- The second text overwrites the pattern in its place and adds its own key behind. -/
example : ((default : ReadingPolicy).attributes "alpha|max:3|min:1|string".toList).entries =
    [("data-parsley-pattern".toList, ".+".toList), ("data-parsley-maxlength".toList, "3".toList),
      ("data-parsley-minlength".toList, "1".toList)] := by
  decide +kernel

end ReadingPolicy

end FormRules
