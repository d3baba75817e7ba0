import FormRules.Text.Basic

/-!
# Pieces of a text

How the two ways of taking a text apart at a separator go together with putting it together again.
`Text.cut` takes a text apart at the first separator, `List.splitOn` at every one; a text that begins
with a piece free of the separator, and a separator behind it, is cut right there. So a text is a piece,
or a piece, a separator and another text (`Text.induction_on_pieces`), and what is said of split texts is
shown for these two. `Text.Between` says of a piece where it stands, without splitting: the piece of a
given number is the one that so many separators stand before (`Text.getElem?_splitOn_eq_some_iff`).

`Text.before` counts separators too: it is the part of a text before the separator of a given number. A
reader that takes characters of a class as far as they go stops where `Text.Stops` says it does.
-/

namespace FormRules.Text

/-! ### Cutting at the first separator -/

theorem cut_of_notMem {sep : Char} {t : Text} (h : sep ∉ t) : cut sep t = (t, none) := by
  induction t with
  | nil => rfl
  | cons c t ih =>
    rw [List.mem_cons, not_or] at h
    rw [cut_cons_of_ne (Ne.symm h.1), ih h.2]

theorem cut_append_cons {sep : Char} {t : Text} (h : sep ∉ t) (rest : Text) :
    cut sep (t ++ sep :: rest) = (t, some rest) := by
  induction t with
  | nil => exact cut_cons_self sep rest
  | cons c t ih =>
    rw [List.mem_cons, not_or] at h
    rw [List.cons_append, cut_cons_of_ne (Ne.symm h.1), ih h.2]

/-- A text has no separator, or it is cut at its first one. -/
theorem cut_cases (sep : Char) (t : Text) :
    sep ∉ t ∧ cut sep t = (t, none) ∨
      ∃ u rest, sep ∉ u ∧ t = u ++ sep :: rest ∧ cut sep t = (u, some rest) := by
  have hfree := sep_notMem_cut sep t
  cases h : (cut sep t).2 with
  | none =>
    rw [cut_eq_none h] at hfree
    exact Or.inl ⟨hfree, cut_of_notMem hfree⟩
  | some rest =>
    refine Or.inr ⟨(cut sep t).1, rest, hfree, (cut_eq_some h).symm, ?_⟩
    rw [← h]

/-! ### The part before a separator of a given number -/

/-- The part of a text before its separator number `n`, counted from zero; all of the text if it does
not have as many. -/
def before (sep : Char) : Nat → Text → Text
  | _, [] => []
  | 0, c :: t => if c = sep then [] else c :: before sep 0 t
  | n + 1, c :: t => c :: before sep (if c = sep then n else n + 1) t

theorem before_nil (sep : Char) (n : Nat) : before sep n [] = [] := by rw [before]

theorem before_cons_of_ne {sep c : Char} (h : c ≠ sep) (n : Nat) (t : Text) :
    before sep n (c :: t) = c :: before sep n t := by
  cases n with
  | zero => rw [before, if_neg h]
  | succ n => rw [before, if_neg h]

/-- Behind a piece without the separator the count is as at the front. -/
theorem before_append {sep : Char} {t : Text} (h : sep ∉ t) (n : Nat) (rest : Text) :
    before sep n (t ++ rest) = t ++ before sep n rest := by
  induction t with
  | nil => rfl
  | cons c t ih =>
    rw [List.mem_cons, not_or] at h
    rw [List.cons_append, before_cons_of_ne (Ne.symm h.1), ih h.2, List.cons_append]

theorem before_of_notMem {sep : Char} {t : Text} (h : sep ∉ t) (n : Nat) : before sep n t = t := by
  rw [← List.append_nil t, before_append h, before_nil]

theorem before_zero (sep : Char) (t : Text) : before sep 0 t = (cut sep t).1 := by
  rcases cut_cases sep t with ⟨h, hcut⟩ | ⟨u, rest, h, rfl, hcut⟩
  · rw [hcut, before_of_notMem h]
  · rw [hcut, before_append h, before, if_pos rfl, List.append_nil]

/-- The separator number `n + 1` of a text is number `n` behind the first one. -/
theorem before_succ_append_cons {sep : Char} {t : Text} (h : sep ∉ t) (n : Nat) (rest : Text) :
    before sep (n + 1) (t ++ sep :: rest) = t ++ sep :: before sep n rest := by
  rw [before_append h, before, if_pos rfl]

/-- What stands before a separator is part of the text. -/
theorem before_sublist (sep : Char) (n : Nat) (t : Text) : (before sep n t).Sublist t := by
  induction t generalizing n with
  | nil => simp [before_nil]
  | cons c t ih =>
    cases n with
    | zero =>
      rw [before]
      split
      · exact List.nil_sublist _
      · exact (ih 0).cons_cons c
    | succ n =>
      rw [before]
      exact (ih _).cons_cons c

/-! ### The longest front of a class -/

/-- A text that begins with no character of a class. -/
def Stops (p : Char → Bool) (t : Text) : Prop := ∀ c ∈ t.head?, p c = false

theorem stops_cons {p : Char → Bool} {c : Char} (h : p c = false) (t : Text) : Stops p (c :: t) := by
  rintro d hd
  rw [← Option.some.inj hd]
  exact h

theorem takeWhile_append {p : Char → Bool} {w t : Text} (hw : ∀ c ∈ w, p c = true)
    (ht : Stops p t) : (w ++ t).takeWhile p = w := by
  rw [List.takeWhile_append_of_pos hw]
  cases t with
  | nil => exact List.append_nil w
  | cons c t => rw [List.takeWhile_cons_of_neg (by simp [ht c rfl]), List.append_nil]

theorem dropWhile_append {p : Char → Bool} {w t : Text} (hw : ∀ c ∈ w, p c = true)
    (ht : Stops p t) : (w ++ t).dropWhile p = t := by
  rw [List.dropWhile_append_of_pos hw]
  cases t with
  | nil => rfl
  | cons c t => rw [List.dropWhile_cons_of_neg (by simp [ht c rfl])]

/-! ### Splitting at every separator -/

/-- What holds of single pieces, and of a text with one more piece in front if it holds of the text,
holds of all texts. -/
theorem induction_on_pieces (sep : Char) {motive : Text → Prop} (t : Text)
    (last : ∀ piece, sep ∉ piece → motive piece)
    (more : ∀ piece rest, sep ∉ piece → motive rest → motive (piece ++ sep :: rest)) : motive t := by
  induction hn : t.length using Nat.strongRecOn generalizing t with
  | ind n ih =>
    rcases cut_cases sep t with ⟨hfree, -⟩ | ⟨piece, rest, hfree, rfl, -⟩
    · exact last t hfree
    · refine more piece rest hfree (ih rest.length ?_ rest rfl)
      rw [← hn, List.length_append, List.length_cons]
      omega

/-- No piece of a split text has the separator in it. -/
theorem notMem_of_mem_splitOn {sep : Char} {t piece : Text} (h : piece ∈ t.splitOn sep) :
    sep ∉ piece := by
  induction t using induction_on_pieces sep with
  | last t hfree =>
    rw [List.splitOn_eq_singleton hfree, List.mem_singleton] at h
    rw [h]
    exact hfree
  | more first rest hfree ih =>
    rw [List.splitOn_append_cons_self_of_not_mem hfree, List.mem_cons] at h
    rcases h with rfl | h
    · exact hfree
    · exact ih h

/-- A text is split into one more piece than it has separators. -/
theorem length_splitOn (sep : Char) (t : Text) : (t.splitOn sep).length = t.count sep + 1 := by
  induction t using induction_on_pieces sep with
  | last piece hfree =>
    rw [List.splitOn_eq_singleton hfree, List.length_singleton, List.count_eq_zero.mpr hfree]
  | more piece rest hfree ih =>
    rw [List.splitOn_append_cons_self_of_not_mem hfree, List.length_cons, ih, List.count_append,
      List.count_eq_zero.mpr hfree, List.count_cons_self, Nat.zero_add]

/-- The pieces of a split text, joined again, make up the text. -/
theorem join_splitOn (sep : Char) (t : Text) : join [sep] (t.splitOn sep) = t :=
  List.intercalate_splitOn sep

/-- A text without the separator is as it was when each separator is replaced. -/
theorem flatMap_of_notMem {sep : Char} {t : Text} (h : sep ∉ t) (new : Text) :
    (t.flatMap fun c => if c = sep then new else [c]) = t := by
  induction t with
  | nil => rfl
  | cons c t ih =>
    rw [List.mem_cons, not_or] at h
    rw [List.flatMap_cons, if_neg (Ne.symm h.1), ih h.2, List.singleton_append]

/-- The pieces of a split text, joined with any text, make up the text with this one in place of each
separator. -/
theorem join_splitOn_eq_flatMap (sep : Char) (new t : Text) :
    join new (t.splitOn sep) = t.flatMap fun c => if c = sep then new else [c] := by
  induction t using induction_on_pieces sep with
  | last piece hfree =>
    rw [List.splitOn_eq_singleton hfree, join, List.intercalate_singleton, flatMap_of_notMem hfree]
  | more piece rest hfree ih =>
    rw [List.splitOn_append_cons_self_of_not_mem hfree, join,
      List.intercalate_cons_of_ne_nil (List.splitOn_ne_nil sep rest), List.flatMap_append,
      flatMap_of_notMem hfree, List.flatMap_cons, if_pos rfl, ← ih, List.append_assoc, join]

/-- The pieces of a split text, joined with another separator, make up the text with this one in place
of the first. -/
theorem join_splitOn_eq_map (sep sep' : Char) (t : Text) :
    join [sep'] (t.splitOn sep) = t.map fun c => if c = sep then sep' else c := by
  have hone : (fun c => if c = sep then [sep'] else [c]) = fun c => [if c = sep then sep' else c] :=
    funext fun c => (apply_ite (fun d => [d]) (c = sep) sep' c).symm
  rw [join_splitOn_eq_flatMap, hone, List.map_eq_flatMap]

/-- Joined pieces without the separator in them, of which there is at least one, are split again. -/
theorem splitOn_join {sep : Char} {pieces : List Text} (hne : pieces ≠ [])
    (h : ∀ piece ∈ pieces, sep ∉ piece) : (join [sep] pieces).splitOn sep = pieces :=
  List.splitOn_intercalate sep h hne

/-! ### The place of a piece -/

/-- What stands in a text between its boundaries number `i` and `i + 1`. The boundaries are the start of
the text, its separators in order, and its end; so there are `i` separators before the piece, and a
boundary on either side of it. -/
structure Between (sep : Char) (i : Nat) (t piece : Text) : Prop where
  /-- There is no boundary inside. -/
  sep_notMem : sep ∉ piece
  /-- What is in front ends at boundary number `i`, and what is behind begins at the next one. -/
  exists_sides : ∃ front back, t = front ++ piece ++ back ∧ front.count sep = i ∧
    (front = [] ∨ ∃ u, front = u ++ [sep]) ∧ (back = [] ∨ ∃ v, back = sep :: v)

/-- A text without the separator is all between its start and its end. -/
theorem between_zero_self {sep : Char} {piece : Text} (h : sep ∉ piece) : Between sep 0 piece piece :=
  ⟨h, [], [], by simp, List.count_nil, Or.inl rfl, Or.inl rfl⟩

/-- What stands before the first separator is between it and the start. -/
theorem between_zero_append_cons {sep : Char} {piece : Text} (h : sep ∉ piece) (rest : Text) :
    Between sep 0 (piece ++ sep :: rest) piece :=
  ⟨h, [], sep :: rest, by simp, List.count_nil, Or.inl rfl, Or.inr ⟨rest, rfl⟩⟩

/-- Behind one more piece the boundaries have the next numbers. -/
theorem Between.succ {sep : Char} {i : Nat} {first rest piece : Text} (hfirst : sep ∉ first)
    (h : Between sep i rest piece) : Between sep (i + 1) (first ++ sep :: rest) piece := by
  obtain ⟨hfree, front, back, rfl, rfl, hfront, hback⟩ := h
  refine ⟨hfree, first ++ sep :: front, back, by simp, ?_, Or.inr ?_, hback⟩
  · rw [List.count_append, List.count_eq_zero.mpr hfirst, List.count_cons_self, Nat.zero_add]
  · rcases hfront with rfl | ⟨u, rfl⟩
    · exact ⟨first, rfl⟩
    · exact ⟨first ++ sep :: u, by simp⟩

/-- There are as many places for pieces as separators, and one more. -/
theorem exists_between {sep : Char} {t : Text} {i : Nat} (h : i ≤ t.count sep) :
    ∃ piece, Between sep i t piece := by
  induction t using induction_on_pieces sep generalizing i with
  | last piece hfree =>
    rw [List.count_eq_zero.mpr hfree, Nat.le_zero] at h
    rw [h]
    exact ⟨piece, between_zero_self hfree⟩
  | more first rest hfree ih =>
    cases i with
    | zero => exact ⟨first, between_zero_append_cons hfree rest⟩
    | succ i =>
      rw [List.count_append, List.count_eq_zero.mpr hfree, List.count_cons_self, Nat.zero_add] at h
      obtain ⟨piece, hpiece⟩ := ih (Nat.le_of_succ_le_succ h)
      exact ⟨piece, hpiece.succ hfree⟩

/-- A text that begins with a piece and a boundary behind it is split into this piece and others. -/
theorem head?_splitOn_append {sep : Char} {piece back : Text} (hfree : sep ∉ piece)
    (hback : back = [] ∨ ∃ v, back = sep :: v) : ((piece ++ back).splitOn sep).head? = some piece := by
  rcases hback with rfl | ⟨v, rfl⟩
  · rw [List.append_nil, List.splitOn_eq_singleton hfree, List.head?_singleton]
  · rw [List.splitOn_append_cons_self_of_not_mem hfree, List.head?_cons]

/-- The piece between two boundaries has the number of the first one. -/
theorem Between.getElem?_splitOn {sep : Char} {i : Nat} {t piece : Text} (h : Between sep i t piece) :
    (t.splitOn sep)[i]? = some piece := by
  obtain ⟨hfree, front, back, rfl, rfl, hfront, hback⟩ := h
  have hhead := head?_splitOn_append hfree hback
  rcases hfront with rfl | ⟨u, rfl⟩
  · rw [List.nil_append, List.count_nil, ← List.head?_eq_getElem?, hhead]
  · -- the pieces of `u` take the first places, as many as `u` and the separator behind it have separators
    have hu : (u ++ [sep]).count sep = (u.splitOn sep).length := by
      rw [length_splitOn, List.count_append, List.count_singleton_self]
    have ht : u ++ [sep] ++ piece ++ back = u ++ sep :: (piece ++ back) := by simp
    rw [hu, ht, List.splitOn_append_cons_self, List.getElem?_append_right (Nat.le_refl _), Nat.sub_self,
      ← List.head?_eq_getElem?, hhead]

/-- The pieces of a split text are what stands between its boundaries, in order. -/
theorem getElem?_splitOn_eq_some_iff {sep : Char} {t piece : Text} {i : Nat} :
    (t.splitOn sep)[i]? = some piece ↔ Between sep i t piece := by
  refine ⟨fun h => ?_, Between.getElem?_splitOn⟩
  obtain ⟨hi, -⟩ := List.getElem?_eq_some_iff.mp h
  rw [length_splitOn] at hi
  obtain ⟨piece', hpiece'⟩ := exists_between (Nat.le_of_lt_succ hi)
  rw [hpiece'.getElem?_splitOn, Option.some.injEq] at h
  rwa [h] at hpiece'

/-! ### The characters of joined pieces -/

/-- A character of joined pieces stands in the separator or in a piece. -/
theorem mem_of_mem_join {c : Char} {sep : Text} {pieces : List Text} (h : c ∈ join sep pieces) :
    c ∈ sep ∨ ∃ piece ∈ pieces, c ∈ piece := by
  induction pieces with
  | nil => exact absurd h List.not_mem_nil
  | cons piece pieces ih =>
    by_cases hnil : pieces = []
    · rw [hnil, join, List.intercalate_singleton] at h
      exact Or.inr ⟨piece, List.mem_cons_self, h⟩
    · rw [join, List.intercalate_cons_of_ne_nil hnil, List.mem_append, List.mem_append] at h
      rcases h with (h | h) | h
      · exact Or.inr ⟨piece, List.mem_cons_self, h⟩
      · exact Or.inl h
      · rcases ih h with h | ⟨piece', hpiece', h⟩
        · exact Or.inl h
        · exact Or.inr ⟨piece', List.mem_cons_of_mem piece hpiece', h⟩

/-- All characters of a piece are characters of the joined pieces. -/
theorem subset_join {piece : Text} {pieces : List Text} (h : piece ∈ pieces) (sep : Text) :
    piece ⊆ join sep pieces := by
  induction pieces with
  | nil => exact absurd h List.not_mem_nil
  | cons first pieces ih =>
    by_cases hnil : pieces = []
    · rw [hnil, List.mem_singleton] at h
      rw [h, hnil, join, List.intercalate_singleton]
      exact List.Subset.refl first
    · rw [join, List.intercalate_cons_of_ne_nil hnil]
      rcases List.mem_cons.mp h with rfl | h
      · exact fun c hc => List.mem_append_left _ (List.mem_append_left sep hc)
      · exact fun c hc => List.mem_append_right _ (ih h hc)

/-- Joined pieces are those before some piece, each with the separator behind it, and then that piece
with nothing or a separator behind it. -/
theorem exists_join_eq (sep : Text) (before : List Text) (piece : Text) (after : List Text) :
    ∃ rest, (rest = [] ∨ ∃ t, rest = sep ++ t) ∧
      join sep (before ++ piece :: after) = before.flatMap (· ++ sep) ++ (piece ++ rest) := by
  induction before with
  | nil =>
    cases after with
    | nil => exact ⟨[], Or.inl rfl, by simp [join]⟩
    | cons next after =>
      refine ⟨sep ++ join sep (next :: after), Or.inr ⟨_, rfl⟩, ?_⟩
      simp [join, List.intercalate_cons_of_ne_nil]
  | cons first before ih =>
    obtain ⟨rest, hrest, hjoin⟩ := ih
    refine ⟨rest, hrest, ?_⟩
    have hne : before ++ piece :: after ≠ [] := by simp
    rw [List.cons_append, join, List.intercalate_cons_of_ne_nil hne]
    show first ++ sep ++ join sep _ = _
    rw [hjoin, List.flatMap_cons, List.append_assoc, List.append_assoc, List.append_assoc]

/-- All characters of a piece of a split text are characters of the text. -/
theorem subset_of_mem_splitOn {sep : Char} {t piece : Text} (h : piece ∈ t.splitOn sep) :
    piece ⊆ t := by
  have hsub := subset_join h [sep]
  rwa [join_splitOn] at hsub

end FormRules.Text
