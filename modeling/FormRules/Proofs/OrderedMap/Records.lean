import FormRules.OrderedMap

/-!
# Maps that record a log of writes

A log is a list of keys with values, written one after the other. A map *records* a log if its keys
are the keys of the log, each once and in the order of their first occurrence, and its value at each
key is the value of the last pair of the log with that key (`Records`). The notion speaks of the log
alone and not of the way in which the map came about.

One insertion extends the recorded log by one pair (`Records.insert`), so writing a list of entries
into the empty map records that list (`records_ofList`). Since keys and values determine a map
(`eq_of_keys_of_get?`), no two maps record the same log (`Records.eq`).
-/

namespace FormRules.OrderedMap

variable {κ α : Type} [DecidableEq κ]

/-! ### Keys and values determine a map -/

omit [DecidableEq κ] in
theorem eq_of_entries_eq {m n : OrderedMap κ α} (h : m.entries = n.entries) : m = n := by
  cases m
  cases n
  simp only at h
  subst h
  rfl

/-- Two lists of entries with the same keys in the same order, none of them twice, and the same value
at each of them are the same list. -/
theorem entries_eq_of_lookup {es es' : List (κ × α)} (hn : (es.map Prod.fst).Nodup)
    (hk : es.map Prod.fst = es'.map Prod.fst)
    (hv : ∀ k ∈ es.map Prod.fst, es.lookup k = es'.lookup k) : es = es' := by
  induction es generalizing es' with
  | nil =>
    rw [List.map_nil, eq_comm, List.map_eq_nil_iff] at hk
    exact hk.symm
  | cons e es ih =>
    obtain ⟨k, v⟩ := e
    cases es' with
    | nil => simp at hk
    | cons e' es' =>
      obtain ⟨k', v'⟩ := e'
      simp only [List.map_cons, List.cons.injEq] at hk
      obtain ⟨rfl, hk⟩ := hk
      rw [List.map_cons, List.nodup_cons] at hn
      have hvv : v = v' := by simpa using hv k (by simp)
      have htail : es = es' := by
        refine ih hn.2 hk fun k' hk' => ?_
        have hne : k ≠ k' := fun h => hn.1 (h ▸ hk')
        simpa [lookup_cons_eq_if, hne] using hv k' (List.mem_cons_of_mem _ hk')
      rw [hvv, htail]

/-- A map is determined by the order of its keys and its value at each key. -/
theorem eq_of_keys_of_get? {m n : OrderedMap κ α} (hk : m.keys = n.keys)
    (hv : ∀ k, m.get? k = n.get? k) : m = n :=
  eq_of_entries_eq (entries_eq_of_lookup m.nodup hk fun k _ => hv k)

/-! ### Logs -/

/-- The pair of `k` and `v` stands in the log, and no later pair has the key `k`. -/
def LastAt (log : List (κ × α)) (k : κ) (v : α) : Prop :=
  ∃ before after, log = before ++ (k, v) :: after ∧ k ∉ after.map Prod.fst

omit [DecidableEq κ] in
theorem not_lastAt_nil (k : κ) (v : α) : ¬ LastAt [] k v := by
  rintro ⟨before, after, h, -⟩
  simp at h

omit [DecidableEq κ] in
/-- The last pair of a log is the last one with its key. -/
theorem lastAt_append_self_iff (log : List (κ × α)) (k : κ) (v w : α) :
    LastAt (log ++ [(k, w)]) k v ↔ w = v := by
  constructor
  · rintro ⟨before, after, h, hk⟩
    rcases List.eq_nil_or_concat after with rfl | ⟨after', e, rfl⟩
    · have := (List.append_inj' h rfl).2
      simpa using this
    · rw [List.concat_eq_append, ← List.cons_append, ← List.append_assoc] at h
      have hlast := (List.append_inj' h rfl).2
      simp only [List.cons.injEq, and_true] at hlast
      exact absurd (by simp [← hlast]) hk
  · rintro rfl
    exact ⟨log, [], rfl, by simp⟩

omit [DecidableEq κ] in
/-- A pair at the end of a log does not matter for other keys. -/
theorem lastAt_append_of_ne (log : List (κ × α)) {k k' : κ} (hne : k' ≠ k) (v w : α) :
    LastAt (log ++ [(k', w)]) k v ↔ LastAt log k v := by
  constructor
  · rintro ⟨before, after, h, hk⟩
    rcases List.eq_nil_or_concat after with rfl | ⟨after', e, rfl⟩
    · have hlast := (List.append_inj' h rfl).2
      simp only [List.cons.injEq, Prod.mk.injEq, and_true] at hlast
      exact absurd hlast.1 hne
    · rw [List.concat_eq_append, ← List.cons_append, ← List.append_assoc] at h
      refine ⟨before, after', (List.append_inj' h rfl).1, fun hmem => hk ?_⟩
      rw [List.concat_eq_append, List.map_append]
      exact List.mem_append_left _ hmem
  · rintro ⟨before, after, rfl, hk⟩
    refine ⟨before, after ++ [(k', w)], by simp, ?_⟩
    rw [List.map_append, List.mem_append]
    rintro (hmem | hmem)
    · exact hk hmem
    · exact hne (List.mem_singleton.mp hmem).symm

/-- One more item at the end of a list is one more distinct item, unless it was there before. -/
theorem eraseDups_append_singleton (l : List κ) (k : κ) :
    (l ++ [k]).eraseDups = if k ∈ l then l.eraseDups else l.eraseDups ++ [k] := by
  rw [List.eraseDups_append]
  by_cases hk : k ∈ l
  · simp [List.removeAll, hk]
  · simp [List.removeAll, hk, List.eraseDups_cons]

/-! ### Recording -/

/-- The map records the log: what was written where first decides the order, what was written where
last decides the value. -/
structure Records (m : OrderedMap κ α) (log : List (κ × α)) : Prop where
  /-- The keys are those of the log, each once, in the order of their first occurrence. -/
  keys : m.keys = (log.map Prod.fst).eraseDups
  /-- The value at a key is that of the last pair with this key. -/
  value : ∀ k v, m.get? k = some v ↔ LastAt log k v

namespace Records

variable {m n : OrderedMap κ α} {log : List (κ × α)}

/-- The keys of the map are the keys that the log writes to. -/
theorem mem_keys_iff (h : m.Records log) (k : κ) : k ∈ m.keys ↔ k ∈ log.map Prod.fst := by
  rw [h.keys, List.mem_eraseDups]

theorem nil : (empty : OrderedMap κ α).Records [] where
  keys := rfl
  value k v := by
    constructor
    · intro h
      cases h
    · intro h
      exact absurd h (not_lastAt_nil k v)

/-- An insertion extends the recorded log by one pair. -/
theorem insert (h : m.Records log) (k : κ) (v : α) : (m.insert k v).Records (log ++ [(k, v)]) where
  keys := by
    rw [keys_insert, h.keys, List.map_append, List.map_singleton, eraseDups_append_singleton]
    simp only [List.mem_eraseDups]
  value k' v' := by
    rw [get?_insert]
    by_cases hk : k = k'
    · subst hk
      rw [if_pos rfl, Option.some.injEq, lastAt_append_self_iff]
    · rw [if_neg hk, lastAt_append_of_ne log hk, h.value]

/-- Writing a list of entries extends the recorded log by that list. -/
theorem insertAll (h : m.Records log) (es : List (κ × α)) :
    (m.insertAll es).Records (log ++ es) := by
  induction es generalizing m log with
  | nil => simpa [OrderedMap.insertAll] using h
  | cons e es ih =>
    have := ih (h.insert e.1 e.2)
    rwa [List.append_assoc] at this

/-- A log is recorded by one map only. -/
theorem eq (h : m.Records log) (h' : n.Records log) : m = n := by
  refine eq_of_keys_of_get? (h.keys.trans h'.keys.symm) fun k => Option.ext fun v => ?_
  rw [h.value, h'.value]

end Records

/-- Writing a list of entries into the empty map records that list. -/
theorem records_ofList (es : List (κ × α)) : (ofList es).Records es := Records.nil.insertAll es

/-! ### The value after a log -/

/-- A log does not touch the value at a key that it does not write to. -/
theorem get?_insertAll_of_notMem (m : OrderedMap κ α) {k : κ} {es : List (κ × α)}
    (h : k ∉ es.map Prod.fst) : (m.insertAll es).get? k = m.get? k := by
  induction es generalizing m with
  | nil => rfl
  | cons e es ih =>
    rw [List.map_cons, List.mem_cons, not_or] at h
    rw [insertAll_cons, ih _ h.2, get?_insert, if_neg (Ne.symm h.1)]

/-- The value at a key that a log writes to does not depend on the map before. -/
theorem get?_insertAll_of_mem (m n : OrderedMap κ α) {k : κ} {es : List (κ × α)}
    (h : k ∈ es.map Prod.fst) : (m.insertAll es).get? k = (n.insertAll es).get? k := by
  induction es generalizing m n with
  | nil => exact absurd h List.not_mem_nil
  | cons e es ih =>
    by_cases hk : k ∈ es.map Prod.fst
    · exact ih _ _ hk
    · -- the first write is the last one at the key
      have hfirst : e.1 = k := by
        rw [List.map_cons, List.mem_cons] at h
        exact (h.resolve_right hk).symm
      rw [insertAll_cons, insertAll_cons, get?_insertAll_of_notMem _ hk,
        get?_insertAll_of_notMem _ hk, get?_insert, get?_insert, if_pos hfirst, if_pos hfirst]

/-! ### A map from its own entries -/

omit [DecidableEq κ] in
/-- There is no value at what is no key. -/
theorem lookup_eq_none_iff_notMem [BEq κ] [LawfulBEq κ] {k : κ} {es : List (κ × α)} :
    es.lookup k = none ↔ k ∉ es.map Prod.fst := by
  rw [List.lookup_eq_none_iff, List.mem_map]
  constructor
  · rintro h ⟨e, he, rfl⟩
    exact bne_iff_ne.mp (h e he) rfl
  · intro h e he
    exact bne_iff_ne.mpr fun hk => h ⟨e, he, hk.symm⟩

/-- A new key goes to the end. -/
theorem insertEntry_of_notMem {k : κ} {es : List (κ × α)} (h : k ∉ es.map Prod.fst) (v : α) :
    insertEntry k v es = es ++ [(k, v)] := by
  induction es with
  | nil => rfl
  | cons e es ih =>
    obtain ⟨k', v'⟩ := e
    rw [List.map_cons, List.mem_cons, not_or] at h
    rw [insertEntry, if_neg (Ne.symm h.1), ih h.2, List.cons_append]

/-- Entries with new keys, none of them twice, go to the end in their order. -/
theorem entries_insertAll_of_nodup (m : OrderedMap κ α) {es : List (κ × α)}
    (h : ((m.entries ++ es).map Prod.fst).Nodup) : (m.insertAll es).entries = m.entries ++ es := by
  induction es generalizing m with
  | nil => exact (List.append_nil _).symm
  | cons e es ih =>
    have hk : e.1 ∉ m.entries.map Prod.fst := by
      rw [List.map_append, List.map_cons, List.nodup_append] at h
      intro hmem
      exact h.2.2 e.1 hmem e.1 List.mem_cons_self rfl
    have hentries : (m.insert e.1 e.2).entries = m.entries ++ [e] := insertEntry_of_notMem hk e.2
    have hstep := ih (m.insert e.1 e.2) (by rw [hentries]; simpa using h)
    rw [hentries, List.append_assoc] at hstep
    exact hstep

/-- Written into the empty map, the entries of a map make this map again. -/
theorem ofList_entries (m : OrderedMap κ α) : ofList m.entries = m :=
  eq_of_entries_eq (entries_insertAll_of_nodup empty m.nodup)

/-- A map records its own entries and what is written into it. -/
theorem records_insertAll (m : OrderedMap κ α) (es : List (κ × α)) :
    (m.insertAll es).Records (m.entries ++ es) := by
  have hrecords := (records_ofList m.entries).insertAll es
  rwa [m.ofList_entries] at hrecords

end FormRules.OrderedMap
