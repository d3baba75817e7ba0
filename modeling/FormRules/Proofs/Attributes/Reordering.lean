import Mathlib.Logic.Equiv.Basic
import FormRules.Proofs.Attributes.Tokens
import FormRules.Proofs.OrderedMap.Algebra
import FormRules.Proofs.Text.Pieces

/-!
# Tokens in another order and tokens that are overwritten

At each key the last token that writes to it decides the value, so the order of the tokens matters only
as far as it decides who is last. Two lists of tokens *agree at a key* if they have the same last
writer there, or none (`EmptyTokens.AgreeAt`); rule texts whose tokens agree at every key have the same
attributes, the order of the keys aside (`perm_attributes_of_agreeAt`).

There are two ways to keep the last writers. Tokens that write to no common key may change places
(`agreeAt_of_reordering`), and a token whose keys are all written again behind it may go
(`agreeAt_of_overwritten`).
-/

namespace FormRules

/-! ### Reorderings -/

/-- A list in another order: every item has a new place, and of two bound items the one in front stays
in front. -/
structure Reordering {α : Type} (Bound : α → α → Prop) (l l' : List α) where
  /-- The new place of the item at an old place. -/
  place : Fin l.length ≃ Fin l'.length
  /-- The item is the same. -/
  item : ∀ i, l'[place i] = l[i]
  /-- Bound items keep their order. -/
  keeps : ∀ i j, i < j → Bound l[i] l[j] → place i < place j

/-- No items are new. -/
theorem Reordering.subset {α : Type} {Bound : α → α → Prop} {l l' : List α}
    (r : Reordering Bound l l') : l' ⊆ l := by
  intro x hx
  obtain ⟨n, hn, rfl⟩ := List.mem_iff_getElem.mp hx
  obtain ⟨i, hi⟩ := r.place.surjective ⟨n, hn⟩
  have hmem : l'[r.place i] ∈ l := by
    rw [r.item]
    exact List.getElem_mem i.isLt
  simp only [hi] at hmem
  exact hmem

namespace EmptyTokens

variable {emptyTokens : EmptyTokens} {ts ts' before after : List Text} {k token : Text}

/-- Two tokens that write to a common key. -/
def Collide (emptyTokens : EmptyTokens) (t t' : Text) : Prop :=
  ∃ k, emptyTokens.Writes t k ∧ emptyTokens.Writes t' k

/-- Whether two tokens collide is decided by the keys of the first. -/
instance (t t' : Text) : Decidable (emptyTokens.Collide t t') :=
  decidable_of_iff
    (∃ k ∈ Rule.keysOf t, emptyTokens.Writes t k ∧ emptyTokens.Writes t' k)
    ⟨fun ⟨k, _, h⟩ => ⟨k, h⟩, fun ⟨k, h⟩ => ⟨k, h.1.2, h⟩⟩

/-! ### Lists of tokens with the same last writers -/

/-- Two lists of tokens have the same last writer to a key, or neither has one. -/
def AgreeAt (emptyTokens : EmptyTokens) (ts ts' : List Text) (k : Text) : Prop :=
  (∃ token, emptyTokens.LastWriter ts k token ∧ emptyTokens.LastWriter ts' k token) ∨
    (∀ t ∈ ts, ¬ emptyTokens.Writes t k) ∧ ∀ t ∈ ts', ¬ emptyTokens.Writes t k

/-- A last writer stays the last writer if colliding tokens keep their order: whatever stands behind
it now and writes to the key stood behind it before. -/
theorem LastWriter.reordering (h : emptyTokens.LastWriter ts k token)
    (r : Reordering emptyTokens.Collide ts ts') : emptyTokens.LastWriter ts' k token := by
  obtain ⟨i, rfl, hw, hlater⟩ := lastWriter_iff_getElem.mp h
  refine lastWriter_iff_getElem.mpr
    ⟨r.place i, r.item i, by rw [r.item]; exact hw, fun j' hj' hw' => ?_⟩
  obtain ⟨j, rfl⟩ := r.place.surjective j'
  rw [r.item] at hw'
  rcases Nat.lt_trichotomy i.val j.val with hij | hij | hji
  · exact hlater j hij hw'
  · rw [Fin.ext hij] at hj'
    exact Nat.lt_irrefl _ hj'
  · exact Nat.lt_asymm hj' (r.keeps j i hji ⟨k, hw', hw⟩)

/-- Tokens in another order have the same last writers, if colliding tokens keep their order. -/
theorem agreeAt_of_reordering (r : Reordering emptyTokens.Collide ts ts') (k : Text) :
    emptyTokens.AgreeAt ts ts' k := by
  rcases lastWriter_cases emptyTokens ts k with ⟨token, hlast⟩ | hidle
  · exact Or.inl ⟨token, hlast, hlast.reordering r⟩
  · exact Or.inr ⟨hidle, fun t' ht' => hidle t' (r.subset ht')⟩

/-- Without a token whose keys are all written again behind it the last writers are the same. -/
theorem agreeAt_of_overwritten
    (h : ∀ k, emptyTokens.Writes token k → ∃ t ∈ after, emptyTokens.Writes t k) (k : Text) :
    emptyTokens.AgreeAt (before ++ after) (before ++ token :: after) k := by
  rcases lastWriter_cases emptyTokens after k with ⟨last, hlast⟩ | hafter
  · exact Or.inl ⟨last, hlast.append_left before, (hlast.append_left [token]).append_left before⟩
  · have hidle : ¬ emptyTokens.Writes token k := by
      intro hw
      obtain ⟨t, ht, hw'⟩ := h k hw
      exact hafter t ht hw'
    have hrest : ∀ t ∈ token :: after, ¬ emptyTokens.Writes t k :=
      List.forall_mem_cons.mpr ⟨hidle, hafter⟩
    rcases lastWriter_cases emptyTokens before k with ⟨last, hlast⟩ | hbefore
    · exact Or.inl ⟨last, hlast.append_right hafter, hlast.append_right hrest⟩
    · exact Or.inr ⟨List.forall_mem_append.mpr ⟨hbefore, hafter⟩,
        List.forall_mem_append.mpr ⟨hbefore, hrest⟩⟩

end EmptyTokens

namespace ReadingPolicy

variable {policy : ReadingPolicy} {rules rules' : Text}

/-- Rule texts whose tokens have the same last writers have the same attributes, in whatever order. -/
theorem perm_attributes_of_agreeAt
    (h : ∀ k, policy.emptyTokens.AgreeAt (tokens rules) (tokens rules') k) :
    (policy.attributes rules).entries.Perm (policy.attributes rules').entries := by
  refine OrderedMap.perm_entries_of_get?_eq fun k => ?_
  rcases h k with ⟨token, hlast, hlast'⟩ | ⟨hidle, hidle'⟩
  · rw [get?_attributes_of_lastWriter policy hlast, get?_attributes_of_lastWriter policy hlast']
  · rw [get?_attributes_of_no_writer policy hidle, get?_attributes_of_no_writer policy hidle']

/-- Some tokens of a rule text, at least one, with bars between them make up a rule text of which they
are the tokens. -/
theorem tokens_join {ts : List Text} (hsub : ts ⊆ tokens rules) (hne : ts ≠ []) :
    tokens (Text.join ['|'] ts) = ts :=
  Text.splitOn_join hne fun _ ht => Text.notMem_of_mem_splitOn (hsub ht)

/-- **Only the order of colliding tokens matters, and what is overwritten does not.** Rule texts with
the same tokens in another order have the same keys and values, if of two tokens that write to a common
key the one in front stays in front; and a rule text keeps its keys and values when a token goes whose
keys are all written again by tokens behind it. -/
theorem attributes_of_reordered_and_overwritten (policy : ReadingPolicy) :
    (∀ rules rules' : Text,
      Reordering policy.emptyTokens.Collide (tokens rules) (tokens rules') →
      (policy.attributes rules).entries.Perm (policy.attributes rules').entries) ∧
    ∀ (rules : Text) (before after : List Text) (token : Text),
      tokens rules = before ++ token :: after →
      (∀ k, policy.emptyTokens.Writes token k → ∃ t ∈ after, policy.emptyTokens.Writes t k) →
      before ++ after ≠ [] →
      (policy.attributes (Text.join ['|'] (before ++ after))).entries.Perm
        (policy.attributes rules).entries := by
  refine ⟨fun rules rules' r => ?_, fun rules before after token hts hover hne => ?_⟩
  · exact perm_attributes_of_agreeAt (EmptyTokens.agreeAt_of_reordering r)
  · have hsub : before ++ after ⊆ tokens rules := by
      rw [hts]
      exact ((List.sublist_cons_self token after).append_left before).subset
    refine perm_attributes_of_agreeAt fun k => ?_
    rw [tokens_join hsub hne, hts]
    exact EmptyTokens.agreeAt_of_overwritten hover k

/-- The first two tokens write to no common key, so they may change places; the last one writes over a
key of the first. Of two patterns the first is overwritten. -/
theorem attributes_of_swapped_and_dropped_token :
    ((default : ReadingPolicy).attributes "digits:3|required|max:5".toList).entries.Perm
        ((default : ReadingPolicy).attributes "required|digits:3|max:5".toList).entries ∧
      ((default : ReadingPolicy).attributes "required|string".toList).entries.Perm
        ((default : ReadingPolicy).attributes "alpha|required|string".toList).entries := by
  obtain ⟨hreordered, hoverwritten⟩ := attributes_of_reordered_and_overwritten default
  have hts : tokens "digits:3|required|max:5".toList =
      ["digits:3".toList, "required".toList, "max:5".toList] := by decide
  have hts' : tokens "required|digits:3|max:5".toList =
      ["required".toList, "digits:3".toList, "max:5".toList] := by decide
  constructor
  · refine hreordered _ _ ?_
    rw [hts, hts']
    exact ⟨(Equiv.swap 0 1 : Fin 3 ≃ Fin 3), by decide, by decide⟩
  · have hkeys : Rule.keysOf "alpha".toList = Rule.keysOf "string".toList := by decide
    refine hoverwritten "alpha|required|string".toList [] ["required".toList, "string".toList]
      "alpha".toList (by decide) (fun k hk => ⟨"string".toList, by decide, rfl, ?_⟩) (by decide)
    rw [← hkeys]
    exact hk.2

end ReadingPolicy

end FormRules
