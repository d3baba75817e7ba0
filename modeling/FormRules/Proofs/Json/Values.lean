import FormRules.Json.Value

/-!
# The parts of written values

What is said of all values is proved by induction over them: of strings, of truth values, of arrays
whose items it holds of and of objects whose members' values it holds of (`Value.recOn_parts`). The
two written forms are given by the written forms of the parts, one after the other, so that facts
about lists apply to them.
-/

namespace FormRules.Json.Value

/-- A property holds of all values if arrays have it from their items and objects from the values of
their members. -/
@[elab_as_elim]
theorem recOn_parts {P : Value → Prop} (v : Value) (string : ∀ t, P (.string t))
    (boolean : ∀ b, P (.boolean b)) (array : ∀ items, (∀ v ∈ items, P v) → P (.array items))
    (object : ∀ members, (∀ m ∈ members, P m.2) → P (.object members)) : P v := by
  refine Value.rec (motive_2 := fun items => ∀ v ∈ items, P v)
    (motive_3 := fun members => ∀ m ∈ members, P m.2) (motive_4 := fun m => P m.2)
    string boolean array object ?_ ?_ ?_ ?_ ?_ v
  · intro v hv
    cases hv
  · intro v items hv hitems
    exact List.forall_mem_cons.mpr ⟨hv, hitems⟩
  · intro m hm
    cases hm
  · intro m members hm hmembers
    exact List.forall_mem_cons.mpr ⟨hm, hmembers⟩
  · intro name v hv
    exact hv

/-! ### The compact form -/

/-- A member in its compact form. -/
def compactPair (m : Text × Value) : Text := quoted m.1 ++ ':' :: m.2.compact

theorem compactItems_eq_map (items : List Value) : compactItems items = items.map compact := by
  induction items with
  | nil => rfl
  | cons v items ih => rw [compactItems, ih, List.map_cons]

theorem compactMembers_eq_map (members : List (Text × Value)) :
    compactMembers members = members.map compactPair := by
  induction members with
  | nil => rfl
  | cons m members ih =>
    obtain ⟨name, v⟩ := m
    rw [compactMembers, ih, List.map_cons, compactPair]

/-! ### The pretty form -/

/-- A member in its pretty form. -/
def prettyPair (level : Nat) (m : Text × Value) : Text := quoted m.1 ++ ':' :: ' ' :: m.2.pretty level

theorem prettyItems_eq_map (level : Nat) (items : List Value) :
    prettyItems level items = items.map (pretty level) := by
  induction items with
  | nil => rfl
  | cons v items ih => rw [prettyItems, ih, List.map_cons]

theorem prettyMembers_eq_map (level : Nat) (members : List (Text × Value)) :
    prettyMembers level members = members.map (prettyPair level) := by
  induction members with
  | nil => rfl
  | cons m members ih =>
    obtain ⟨name, v⟩ := m
    rw [prettyMembers, ih, List.map_cons, prettyPair]

end FormRules.Json.Value
