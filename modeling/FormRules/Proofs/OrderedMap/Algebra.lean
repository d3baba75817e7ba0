import Mathlib.Data.List.Nodup
import FormRules.Proofs.OrderedMap.Records

/-!
# Erasing, merging, mapping and comparing maps

What an operation on a whole map does to the two halves of its view, the order of the keys and the
value at each of them: `keys_erase` and `get?_erase` for a map without some key, `keys_merge` and
`get?_merge` for a map that is overwritten by another one, `keys_map` and `get?_map` for a map whose
values are replaced by a function of them. Keys and values determine a map, so these equations carry
the laws by which the operations run along a log: erasing a key drops its pairs from the log
(`erase_insertAll`), a log may be collapsed to a map before it is written (`merge_insertAll`), and
values may be replaced in the log before it is written (`map_insertAll`).

Where the order of the keys is left aside, the values alone determine the entries
(`perm_entries_of_get?_eq`).
-/

namespace FormRules.OrderedMap

variable {κ α : Type} [DecidableEq κ]

/-! ### Entries and values -/

section Lookup

omit [DecidableEq κ]

variable [BEq κ] [LawfulBEq κ]

/-- Among entries with distinct keys the first at a key is the only one. -/
theorem lookup_eq_some_iff_mem {k : κ} {v : α} {es : List (κ × α)} (h : (es.map Prod.fst).Nodup) :
    es.lookup k = some v ↔ (k, v) ∈ es := by
  rw [List.lookup_eq_some_iff]
  constructor
  · rintro ⟨before, after, rfl, -⟩
    exact List.mem_append_right before List.mem_cons_self
  · intro hmem
    obtain ⟨before, after, rfl⟩ := List.append_of_mem hmem
    rw [List.map_append, List.map_cons, List.nodup_append] at h
    exact ⟨before, after, rfl, fun e he => bne_iff_ne.mpr
      (h.2.2 e.1 (List.mem_map_of_mem he) k List.mem_cons_self).symm⟩

/-- In which order entries with distinct keys stand does not matter to what is found among them. -/
theorem lookup_perm {es es' : List (κ × α)} (h : es.Perm es') (hn : (es.map Prod.fst).Nodup)
    (k : κ) : es'.lookup k = es.lookup k := by
  have hn' : (es'.map Prod.fst).Nodup := (h.map Prod.fst).nodup_iff.mp hn
  refine Option.ext fun v => ?_
  rw [lookup_eq_some_iff_mem hn', lookup_eq_some_iff_mem hn]
  exact h.mem_iff.symm

end Lookup

/-- An entry behind a write is the written one or was there before. -/
theorem mem_of_mem_insertEntry {k : κ} {v : α} {e : κ × α} {es : List (κ × α)}
    (h : e ∈ insertEntry k v es) : e = (k, v) ∨ e ∈ es := by
  induction es with
  | nil => exact Or.inl (List.mem_singleton.mp h)
  | cons e' es ih =>
    obtain ⟨k', v'⟩ := e'
    rw [insertEntry] at h
    split at h
    · rcases List.mem_cons.mp h with h | h
      · exact Or.inl h
      · exact Or.inr (List.mem_cons_of_mem _ h)
    · rcases List.mem_cons.mp h with h | h
      · exact Or.inr (h ▸ List.mem_cons_self)
      · exact (ih h).imp_right (List.mem_cons_of_mem _)

/-- The entries of a map are its keys with the values at them. -/
theorem mem_entries_iff (m : OrderedMap κ α) {k : κ} {v : α} :
    (k, v) ∈ m.entries ↔ m.get? k = some v :=
  (lookup_eq_some_iff_mem m.nodup).symm

/-- Two maps with the same value at each key have the same entries, in whatever order. -/
theorem perm_entries_of_get?_eq {m n : OrderedMap κ α} (h : ∀ k, m.get? k = n.get? k) :
    m.entries.Perm n.entries := by
  rw [List.perm_ext_iff_of_nodup m.nodup.of_map n.nodup.of_map]
  rintro ⟨k, v⟩
  rw [mem_entries_iff, mem_entries_iff, h]

/-! ### Keys after an insertion -/

theorem keys_insert_of_mem {m : OrderedMap κ α} {k : κ} (h : k ∈ m.keys) (v : α) :
    (m.insert k v).keys = m.keys := by
  rw [keys_insert, if_pos h]

theorem keys_insert_of_notMem {m : OrderedMap κ α} {k : κ} (h : k ∉ m.keys) (v : α) :
    (m.insert k v).keys = m.keys ++ [k] := by
  rw [keys_insert, if_neg h]

/-! ### Erasing -/

theorem keys_erase (m : OrderedMap κ α) (k : κ) : (m.erase k).keys = m.keys.filter (· ≠ k) := by
  rw [keys, keys, List.filter_map]
  rfl

theorem mem_keys_erase_iff (m : OrderedMap κ α) (k k' : κ) :
    k' ∈ (m.erase k).keys ↔ k' ∈ m.keys ∧ k' ≠ k := by
  rw [keys_erase, List.mem_filter, decide_eq_true_eq]

theorem lookup_filter_ne (k k' : κ) (es : List (κ × α)) :
    (es.filter fun e => e.1 ≠ k).lookup k' = if k = k' then none else es.lookup k' := by
  induction es with
  | nil => simp
  | cons e es ih =>
    obtain ⟨k₁, v⟩ := e
    by_cases h₁ : k₁ = k
    · subst h₁
      rw [List.filter_cons_of_neg (by simp), ih, lookup_cons_eq_if]
      by_cases h : k₁ = k' <;> simp [h]
    · rw [List.filter_cons_of_pos (by simpa using h₁), lookup_cons_eq_if, ih, lookup_cons_eq_if]
      by_cases h : k₁ = k'
      · subst h
        simp [Ne.symm h₁]
      · simp [h]

/-- Without the entry at `k` there is no value at `k`, and no other value changes. -/
theorem get?_erase (m : OrderedMap κ α) (k k' : κ) :
    (m.erase k).get? k' = if k = k' then none else m.get? k' :=
  lookup_filter_ne k k' m.entries

/-- An insertion at the erased key does not matter. -/
theorem erase_insert_self (m : OrderedMap κ α) (k : κ) (v : α) :
    (m.insert k v).erase k = m.erase k := by
  refine eq_of_keys_of_get? ?_ fun k' => ?_
  · rw [keys_erase, keys_erase]
    by_cases hk : k ∈ m.keys
    · rw [keys_insert_of_mem hk]
    · rw [keys_insert_of_notMem hk, List.filter_append, List.filter_singleton]
      simp
  · rw [get?_erase, get?_erase, get?_insert]
    split <;> rfl

/-- An insertion at another key can come before or after the erasing. -/
theorem erase_insert_of_ne (m : OrderedMap κ α) {k k' : κ} (h : k' ≠ k) (v : α) :
    (m.insert k' v).erase k = (m.erase k).insert k' v := by
  refine eq_of_keys_of_get? ?_ fun k₁ => ?_
  · rw [keys_erase]
    by_cases hk : k' ∈ m.keys
    · have hmem : k' ∈ (m.erase k).keys := (mem_keys_erase_iff m k k').mpr ⟨hk, h⟩
      rw [keys_insert_of_mem hk, keys_insert_of_mem hmem, keys_erase]
    · have hmem : k' ∉ (m.erase k).keys := fun hmem => hk ((mem_keys_erase_iff m k k').mp hmem).1
      rw [keys_insert_of_notMem hk, keys_insert_of_notMem hmem, keys_erase, List.filter_append,
        List.filter_cons_of_pos (by simpa using h), List.filter_nil]
  · rw [get?_erase, get?_insert, get?_insert, get?_erase]
    by_cases h₁ : k' = k₁
    · subst h₁
      simp [Ne.symm h]
    · simp [h₁]

/-- Erasing a key behind a log is the same as dropping its pairs from the log. -/
theorem erase_insertAll (m : OrderedMap κ α) (k : κ) (es : List (κ × α)) :
    (m.insertAll es).erase k = (m.erase k).insertAll (es.filter fun e => e.1 ≠ k) := by
  induction es generalizing m with
  | nil => rfl
  | cons e es ih =>
    rw [insertAll_cons, ih]
    by_cases h : e.1 = k
    · rw [List.filter_cons_of_neg (by simpa using h), ← h, erase_insert_self]
    · rw [List.filter_cons_of_pos (by simpa using h), insertAll_cons, erase_insert_of_ne m h]

/-! ### Merging -/

/-- New keys go to the end in their order. -/
theorem keys_insertAll_of_nodup (m : OrderedMap κ α) {es : List (κ × α)}
    (h : (es.map Prod.fst).Nodup) :
    (m.insertAll es).keys = m.keys ++ (es.map Prod.fst).filter (· ∉ m.keys) := by
  induction es generalizing m with
  | nil => exact (List.append_nil _).symm
  | cons e es ih =>
    rw [List.map_cons, List.nodup_cons] at h
    rw [insertAll_cons, ih _ h.2, List.map_cons]
    by_cases hk : e.1 ∈ m.keys
    · rw [keys_insert_of_mem hk, List.filter_cons_of_neg (by simpa using hk)]
    · -- the key that was just added does not come again
      have hfilter : (es.map Prod.fst).filter (· ∉ m.keys ++ [e.1]) =
          (es.map Prod.fst).filter (· ∉ m.keys) := by
        refine List.filter_congr fun k hmem => ?_
        have hne : k ≠ e.1 := fun heq => h.1 (heq ▸ hmem)
        simp [hne]
      rw [keys_insert_of_notMem hk, List.filter_cons_of_pos (by simpa using hk), hfilter,
        List.append_assoc]
      rfl

/-- Distinct keys have the values that are written to them, and no other value changes. -/
theorem get?_insertAll_of_nodup (m : OrderedMap κ α) {es : List (κ × α)}
    (h : (es.map Prod.fst).Nodup) (k : κ) :
    (m.insertAll es).get? k = (es.lookup k).or (m.get? k) := by
  induction es generalizing m with
  | nil => rfl
  | cons e es ih =>
    obtain ⟨k', v⟩ := e
    rw [List.map_cons, List.nodup_cons] at h
    rw [insertAll_cons, ih _ h.2, get?_insert, lookup_cons_eq_if]
    by_cases hk : k' = k
    · subst hk
      rw [if_pos rfl, if_pos rfl, lookup_eq_none_iff_notMem.mpr h.1]
      rfl
    · rw [if_neg hk, if_neg hk]

/-- A merged map has the keys of the first map in their order, and then those of the second that are
new, in theirs. -/
theorem keys_merge (m n : OrderedMap κ α) :
    (m.merge n).keys = m.keys ++ n.keys.filter (· ∉ m.keys) :=
  keys_insertAll_of_nodup m n.nodup

theorem mem_keys_merge_iff (m n : OrderedMap κ α) (k : κ) :
    k ∈ (m.merge n).keys ↔ k ∈ m.keys ∨ k ∈ n.keys := by
  rw [keys_merge, List.mem_append, List.mem_filter, decide_eq_true_eq]
  constructor
  · rintro (h | ⟨h, -⟩)
    · exact Or.inl h
    · exact Or.inr h
  · intro h
    by_cases hm : k ∈ m.keys
    · exact Or.inl hm
    · exact Or.inr ⟨h.resolve_left hm, hm⟩

/-- A merged map has the values of the second map, and where this has none those of the first. -/
theorem get?_merge (m n : OrderedMap κ α) (k : κ) :
    (m.merge n).get? k = (n.get? k).or (m.get? k) :=
  get?_insertAll_of_nodup m n.nodup k

/-- An insertion into the second map can come behind the merging. -/
theorem merge_insert (m n : OrderedMap κ α) (k : κ) (v : α) :
    m.merge (n.insert k v) = (m.merge n).insert k v := by
  refine eq_of_keys_of_get? ?_ fun k' => ?_
  · rw [keys_merge]
    by_cases hn : k ∈ n.keys
    · have hmem : k ∈ (m.merge n).keys := (mem_keys_merge_iff m n k).mpr (Or.inr hn)
      rw [keys_insert_of_mem hn, keys_insert_of_mem hmem, keys_merge]
    · rw [keys_insert_of_notMem hn, List.filter_append, ← List.append_assoc, ← keys_merge]
      by_cases hm : k ∈ m.keys
      · have hmem : k ∈ (m.merge n).keys := (mem_keys_merge_iff m n k).mpr (Or.inl hm)
        rw [keys_insert_of_mem hmem, List.filter_cons_of_neg (by simpa using hm), List.filter_nil,
          List.append_nil]
      · have hmem : k ∉ (m.merge n).keys := fun hmem =>
          ((mem_keys_merge_iff m n k).mp hmem).elim hm hn
        rw [keys_insert_of_notMem hmem, List.filter_cons_of_pos (by simpa using hm), List.filter_nil]
  · rw [get?_merge, get?_insert, get?_insert, get?_merge]
    split <;> rfl

/-- A log that is written into the second map can be written behind the merging. -/
theorem merge_insertAll (m n : OrderedMap κ α) (es : List (κ × α)) :
    m.merge (n.insertAll es) = (m.merge n).insertAll es := by
  induction es generalizing n with
  | nil => rfl
  | cons e es ih => rw [insertAll_cons, ih, merge_insert, insertAll_cons]

/-- A log has the same effect when it is collapsed to a map first, repeated keys included. -/
theorem merge_ofList (m : OrderedMap κ α) (es : List (κ × α)) :
    m.merge (ofList es) = m.insertAll es :=
  merge_insertAll m empty es

/-- A map overwritten by itself stays as it is. -/
theorem merge_self (m : OrderedMap κ α) : m.merge m = m := by
  refine eq_of_keys_of_get? ?_ fun k => ?_
  · have hnone : m.keys.filter (· ∉ m.keys) = [] := by simp
    rw [keys_merge, hnone, List.append_nil]
  · rw [get?_merge, Option.or_self]

/-! ### Mapping -/

section Mapping

variable {β : Type} (f : α → β)

omit [DecidableEq κ] in
/-- Replacing values keeps the keys and their order. -/
theorem keys_map (m : OrderedMap κ α) : (m.map f).keys = m.keys := by
  rw [keys, keys, map, List.map_map]
  rfl

theorem lookup_map (k : κ) (es : List (κ × α)) :
    (es.map fun e => (e.1, f e.2)).lookup k = (es.lookup k).map f := by
  induction es with
  | nil => rfl
  | cons e es ih =>
    obtain ⟨k', v⟩ := e
    rw [List.map_cons, lookup_cons_eq_if, lookup_cons_eq_if, ih]
    split <;> rfl

theorem get?_map (m : OrderedMap κ α) (k : κ) : (m.map f).get? k = (m.get? k).map f :=
  lookup_map f k m.entries

/-- An insertion can come before or after the replacing of values. -/
theorem map_insert (m : OrderedMap κ α) (k : κ) (v : α) :
    (m.insert k v).map f = (m.map f).insert k (f v) := by
  refine eq_of_keys_of_get? ?_ fun k' => ?_
  · rw [keys_map, keys_insert, keys_insert, keys_map]
  · rw [get?_map, get?_insert, get?_insert, get?_map]
    split <;> rfl

/-- Values may be replaced behind a log, or before it and in it. -/
theorem map_insertAll (m : OrderedMap κ α) (es : List (κ × α)) :
    (m.insertAll es).map f = (m.map f).insertAll (es.map fun e => (e.1, f e.2)) := by
  induction es generalizing m with
  | nil => rfl
  | cons e es ih => rw [insertAll_cons, ih, map_insert, List.map_cons, insertAll_cons]

/-- A map of replaced values records the log with its values replaced. -/
theorem Records.map {m : OrderedMap κ α} {log : List (κ × α)} (h : m.Records log) :
    (m.map f).Records (log.map fun e => (e.1, f e.2)) := by
  have hm : m = ofList log := h.eq (records_ofList log)
  rw [hm, ofList, map_insertAll]
  exact records_ofList _

end Mapping

end FormRules.OrderedMap
