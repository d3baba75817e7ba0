import FormRules.Proofs.Json.Unambiguous

/-!
# Written values are JSON texts

The grammar of JSON texts for the values that are printed, said without a printer:

    value  = string | 'true' | 'false' | '[' list of values ']' | '{' list of pairs '}'
    pair   = string ws ':' ws value
    list   = ws | ws item ws { ',' ws item ws }

where `ws` is a run of blanks. Both written forms of a value are derived from it, and with this very
value as what they stand for (`valueText_compact`, `valueText_pretty`). They differ in their blanks
only: items are joined with a comma and some blanks, the same between any two of them
(`enclosed_join`).
-/

namespace FormRules.Json

/-! ### The grammar -/

/-- One item or more, with commas between them and blanks around the commas and behind the last. -/
inductive Listed {α : Type} (Item : Text → α → Prop) : Text → List α → Prop where
  /-- The last item. -/
  | last {w b : Text} {a : α} : Item w a → Blanks b → Listed Item (w ++ b) [a]
  /-- An item and those behind a comma. -/
  | more {w b b' u : Text} {a : α} {as : List α} : Item w a → Blanks b → Blanks b' →
      Listed Item u as → Listed Item (w ++ (b ++ ',' :: (b' ++ u))) (a :: as)

/-- What stands between two brackets: blanks, and then items or nothing. -/
inductive Enclosed {α : Type} (Item : Text → α → Prop) : Text → List α → Prop where
  /-- No items. -/
  | none {b : Text} : Blanks b → Enclosed Item b []
  /-- Items. -/
  | some {b w : Text} {as : List α} : Blanks b → Listed Item w as → Enclosed Item (b ++ w) as

mutual

/-- A JSON text of a value. -/
inductive ValueText : Text → Value → Prop where
  /-- A string between quotes. -/
  | string {w t : Text} : StringText w t → ValueText w (.string t)
  /-- A truth value. -/
  | boolean {b : Bool} : ValueText (booleanText b) (.boolean b)
  /-- An array. -/
  | array {w : Text} {items : List Value} : Enclosed ValueText w items →
      ValueText ('[' :: (w ++ [']'])) (.array items)
  /-- An object. -/
  | object {w : Text} {members : List (Text × Value)} : Enclosed PairText w members →
      ValueText ('{' :: (w ++ ['}'])) (.object members)

/-- A JSON text of a member of an object: its name, a colon and its value. -/
inductive PairText : Text → Text × Value → Prop where
  /-- Blanks may stand around the colon. -/
  | pair {key b₁ b₂ u name : Text} {v : Value} : StringText key name → Blanks b₁ → Blanks b₂ →
      ValueText u v → PairText (key ++ (b₁ ++ ':' :: (b₂ ++ u))) (name, v)

end

/-! ### Joined items -/

section Items

variable {α : Type} {Item : Text → α → Prop} {f : α → Text}

/-- Items joined with a comma and some blanks, and blanks behind the last. -/
theorem listed_join {b b' : Text} (hb : Blanks b) (hb' : Blanks b') (a : α) (as : List α)
    (h : ∀ x ∈ a :: as, Item (f x) x) :
    Listed Item (Text.join (',' :: b) ((a :: as).map f) ++ b') (a :: as) := by
  induction as generalizing a with
  | nil =>
    rw [List.map_singleton, Text.join, List.intercalate_singleton]
    exact .last (h a List.mem_cons_self) hb'
  | cons a' as ih =>
    have htail := ih a' fun x hx => h x (List.mem_cons_of_mem a hx)
    have hlisted := Listed.more (h a List.mem_cons_self) .nil hb htail
    rw [List.map_cons, List.map_cons, Text.join, List.intercalate_cons_cons]
    simpa [Text.join] using hlisted

/-- Items joined with commas alone are a list. -/
theorem enclosed_join (as : List α) (h : ∀ a ∈ as, Item (f a) a) :
    Enclosed Item (Text.join [','] (as.map f)) as := by
  cases as with
  | nil => exact .none .nil
  | cons a as =>
    have hlisted := listed_join .nil .nil a as h
    rw [List.append_nil] at hlisted
    exact .some .nil hlisted

/-- Pieces that all begin alike may be joined with that beginning behind the separator. -/
theorem join_map_append (sep p w : Text) (ws : List Text) :
    Text.join sep ((w :: ws).map (p ++ ·)) = p ++ Text.join (sep ++ p) (w :: ws) := by
  induction ws generalizing w with
  | nil => simp [Text.join]
  | cons w' ws ih =>
    have htail := ih w'
    rw [List.map_cons, Text.join] at htail
    rw [List.map_cons, List.map_cons, Text.join, List.intercalate_cons_cons, htail, Text.join,
      Text.join, List.intercalate_cons_cons]
    simp

/-- Items on lines of their own are a list. -/
theorem exists_enclosed_block (opening closing : Char) (level : Nat) (as : List α)
    (h : ∀ a ∈ as, Item (f a) a) :
    ∃ w, Enclosed Item w as ∧
      Value.block level opening closing (as.map f) = opening :: (w ++ [closing]) := by
  have hline : ∀ n, Blanks ('\n' :: Value.indent n) := fun n =>
    List.forall_mem_cons.mpr ⟨by simp, blanks_indent n⟩
  cases as with
  | nil => exact ⟨[], .none .nil, rfl⟩
  | cons a as =>
    refine ⟨_, .some (hline (level + 1)) (listed_join (hline (level + 1)) (hline level) a as h), ?_⟩
    rw [Value.block, if_neg (by simp), List.map_cons, join_map_append]
    simp

end Items

/-! ### Written values -/

/-- **The compact form** of a value is a JSON text of it. -/
theorem valueText_compact (v : Value) : ValueText v.compact v := by
  induction v using Value.recOn_parts with
  | string t => exact .string (stringText_quoted t)
  | boolean b => exact .boolean
  | array items ih =>
    rw [Value.compact, Value.compactItems_eq_map]
    exact .array (enclosed_join items ih)
  | object members ih =>
    rw [Value.compact, Value.compactMembers_eq_map]
    refine .object (enclosed_join members fun m hm => ?_)
    have hdense : Blanks [] := .nil
    exact .pair (stringText_quoted m.1) hdense hdense (ih m hm)

/-- **The pretty form** of a value is a JSON text of it too. -/
theorem valueText_pretty (v : Value) (level : Nat) : ValueText (v.pretty level) v := by
  induction v using Value.recOn_parts generalizing level with
  | string t => exact .string (stringText_quoted t)
  | boolean b => exact .boolean
  | array items ih =>
    obtain ⟨w, hw, hblock⟩ := exists_enclosed_block '[' ']' level items fun v hv => ih v hv (level + 1)
    rw [Value.pretty, Value.prettyItems_eq_map, hblock]
    exact .array hw
  | object members ih =>
    have hpair : ∀ m ∈ members, PairText (Value.prettyPair (level + 1) m) m := by
      intro m hm
      have hdense : Blanks [] := .nil
      have hspaced : Blanks [' '] := skipBlanks_eq_nil_iff.mp rfl
      exact .pair (stringText_quoted m.1) hdense hspaced (ih m hm (level + 1))
    obtain ⟨w, hw, hblock⟩ := exists_enclosed_block '{' '}' level members hpair
    rw [Value.pretty, Value.prettyMembers_eq_map, hblock]
    exact .object hw

end FormRules.Json
