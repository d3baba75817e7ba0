/-!
# Ordered maps

An ordered map holds each key once, together with its value, in the order in which the keys first
arrived. `insert` gives a key that is already there its new value and leaves it in its place; a new
key goes to the end. Every operation of this library on attributes, on the fields of a form and on
the members of a JSON object is an operation on such a map.

The view of a map is its list of entries, in which `List.lookup` finds the value at a key. The main
facts say what an insertion does to the two halves of that view: `keys_insert` for the order of the
keys and `get?_insert` for the values.
-/

namespace FormRules

/-- Keys with their values, each key once, in the order of their first arrival. -/
structure OrderedMap (κ : Type) (α : Type) where
  /-- The keys with their values, in order. -/
  entries : List (κ × α)
  /-- No key occurs twice. -/
  nodup : (entries.map Prod.fst).Nodup

namespace OrderedMap

variable {κ α β : Type}

/-! ### Entry lists -/

section Entries

variable [DecidableEq κ]

/-- A list of entries after writing `v` at `k`: in place if `k` is there, else at the end. -/
def insertEntry (k : κ) (v : α) : List (κ × α) → List (κ × α)
  | [] => [(k, v)]
  | (k', v') :: es => if k' = k then (k, v) :: es else (k', v') :: insertEntry k v es

/-- Writing at `k` keeps the order of the keys; a new key goes to the end. -/
theorem map_fst_insertEntry (k : κ) (v : α) (es : List (κ × α)) :
    (insertEntry k v es).map Prod.fst =
      if k ∈ es.map Prod.fst then es.map Prod.fst else es.map Prod.fst ++ [k] := by
  induction es with
  | nil => simp [insertEntry]
  | cons e es ih =>
    obtain ⟨k', v'⟩ := e
    by_cases h : k' = k
    · simp [insertEntry, h]
    · simp only [insertEntry, h, if_false, List.map_cons, ih, List.mem_cons, Ne.symm h, false_or]
      split <;> simp

theorem nodup_insertEntry (k : κ) (v : α) {es : List (κ × α)} (h : (es.map Prod.fst).Nodup) :
    ((insertEntry k v es).map Prod.fst).Nodup := by
  rw [map_fst_insertEntry]
  split
  · exact h
  · rename_i hk
    rw [List.nodup_append]
    refine ⟨h, by simp, fun a ha b hb hab => hk ?_⟩
    rw [List.mem_singleton] at hb
    rw [← hb, ← hab]
    exact ha

/-- The first entry is found at its own key, and is passed over at any other. -/
theorem lookup_cons_eq_if [BEq κ] [LawfulBEq κ] (k k' : κ) (v : α) (es : List (κ × α)) :
    ((k', v) :: es).lookup k = if k' = k then some v else es.lookup k := by
  by_cases h : k' = k
  · rw [if_pos h, h, List.lookup_cons_self]
  · rw [if_neg h, List.lookup_cons, beq_eq_false_iff_ne.mpr (Ne.symm h)]

/-- Behind a write the written value is at its key, and no other value changes. -/
theorem lookup_insertEntry (k k' : κ) (v : α) (es : List (κ × α)) :
    (insertEntry k v es).lookup k' = if k = k' then some v else es.lookup k' := by
  induction es with
  | nil => exact lookup_cons_eq_if k' k v []
  | cons e es ih =>
    obtain ⟨k₁, v₁⟩ := e
    rw [insertEntry, lookup_cons_eq_if k' k₁]
    by_cases h₁ : k₁ = k
    · subst h₁
      rw [if_pos rfl, lookup_cons_eq_if]
      by_cases h : k₁ = k'
      · rw [if_pos h, if_pos h]
      · rw [if_neg h, if_neg h, if_neg h]
    · rw [if_neg h₁, lookup_cons_eq_if, ih]
      by_cases h : k₁ = k'
      · subst h
        rw [if_pos rfl, if_pos rfl, if_neg (Ne.symm h₁)]
      · rw [if_neg h, if_neg h]

end Entries

/-! ### Maps -/

/-- The map without entries. -/
def empty : OrderedMap κ α := ⟨[], List.nodup_nil⟩

instance : Inhabited (OrderedMap κ α) := ⟨empty⟩

/-- The keys, in order. -/
def keys (m : OrderedMap κ α) : List κ := m.entries.map Prod.fst

/-- How many entries there are. -/
def size (m : OrderedMap κ α) : Nat := m.entries.length

/-- Whether there are no entries. -/
def isEmpty (m : OrderedMap κ α) : Bool := m.entries.isEmpty

/-- The map with every value replaced by `f` of it. -/
def map (f : α → β) (m : OrderedMap κ α) : OrderedMap κ β where
  entries := m.entries.map fun e => (e.1, f e.2)
  nodup := by
    have h := m.nodup
    rwa [List.map_map, show (Prod.fst ∘ fun e : κ × α => (e.1, f e.2)) = Prod.fst from rfl]

section Keyed

variable [DecidableEq κ]

/-- The map with `v` at `k`: in place if `k` is there already, else at the end. -/
def insert (m : OrderedMap κ α) (k : κ) (v : α) : OrderedMap κ α :=
  ⟨insertEntry k v m.entries, nodup_insertEntry k v m.nodup⟩

/-- The value at a key. -/
def get? (m : OrderedMap κ α) (k : κ) : Option α := m.entries.lookup k

/-- The map after writing a list of entries from left to right. -/
def insertAll (m : OrderedMap κ α) (es : List (κ × α)) : OrderedMap κ α :=
  es.foldl (fun m e => m.insert e.1 e.2) m

/-- The entries of a list written from left to right into the empty map. -/
def ofList (es : List (κ × α)) : OrderedMap κ α := empty.insertAll es

/-- The first map overwritten by the second: its keys in their order, then the keys that only the
second has, in that one's order. -/
def merge (m n : OrderedMap κ α) : OrderedMap κ α := m.insertAll n.entries

/-- The map without the entry at `k`. -/
def erase (m : OrderedMap κ α) (k : κ) : OrderedMap κ α where
  entries := m.entries.filter fun e => e.1 ≠ k
  nodup := m.nodup.sublist (List.filter_sublist.map Prod.fst)

/-- Whether two maps have the same keys, in whatever order, and values at each key that `same` holds
to be the same. -/
def agrees (same : α → α → Bool) (m n : OrderedMap κ α) : Bool :=
  m.size = n.size && m.entries.all fun e => (n.get? e.1).any (same e.2)

/-- An insertion keeps the order of the keys; a new key goes to the end. -/
theorem keys_insert (m : OrderedMap κ α) (k : κ) (v : α) :
    (m.insert k v).keys = if k ∈ m.keys then m.keys else m.keys ++ [k] :=
  map_fst_insertEntry k v m.entries

/-- After an insertion at `k` the value at `k` is the inserted one, and no other value changes. -/
theorem get?_insert (m : OrderedMap κ α) (k k' : κ) (v : α) :
    (m.insert k v).get? k' = if k = k' then some v else m.get? k' :=
  lookup_insertEntry k k' v m.entries

theorem insertAll_cons (m : OrderedMap κ α) (e : κ × α) (es : List (κ × α)) :
    m.insertAll (e :: es) = (m.insert e.1 e.2).insertAll es := rfl

theorem insertAll_append (m : OrderedMap κ α) (es es' : List (κ × α)) :
    m.insertAll (es ++ es') = (m.insertAll es).insertAll es' := List.foldl_append

end Keyed

end OrderedMap

end FormRules
