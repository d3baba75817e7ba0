import FormRules.Rule.Arguments
import FormRules.Proofs.Text.Pieces

/-!
# Slots and blobs

A blob and the list of its slots say the same. The slots of a blob are the texts between its commas: each
slot is read as the text at its place (`slot_ofBlob_eq_iff`), and all of them joined are the blob with
something else for its commas (`joined_ofBlob`).

In the other direction a list of slots is written as a blob by joining it with commas. A slot that holds
nothing then comes back as one that holds the empty text, which no reading can tell from it. Otherwise the
list comes back as it was exactly if there is a slot at all, since even the empty blob has one, and if no
text has a comma in it, since such a text comes back as several (`ofBlob_joined_eq_iff`).
-/

namespace FormRules

namespace Arguments

/-! ### The slots of a blob -/

/-- The slots of a blob joined with any text are the blob with this text in place of each comma. -/
theorem joined_ofBlob (blob sep : Text) :
    (ofBlob blob).joined sep = blob.flatMap fun c => if c = ',' then sep else [c] := by
  rw [joined, texts_ofBlob, Text.join_splitOn_eq_flatMap]

/-- The slots of a blob joined with a character are the blob with this character for its commas. -/
theorem joined_singleton_ofBlob (blob : Text) (sep : Char) :
    (ofBlob blob).joined [sep] = blob.map fun c => if c = ',' then sep else c := by
  rw [joined, texts_ofBlob, Text.join_splitOn_eq_map]

/-- Arguments that were read from a blob are written as this blob. -/
theorem joined_comma_ofBlob (blob : Text) : (ofBlob blob).joined [','] = blob := by
  rw [joined, texts_ofBlob, Text.join_splitOn]

/-- A blob has one more slot than commas, and each of them holds a text. -/
theorem exists_slots_ofBlob (blob : Text) :
    ∃ values, ofBlob blob = slots values ∧ values.length = blob.count ',' + 1 ∧ none ∉ values := by
  refine ⟨(blob.splitOn ',').map some, rfl, ?_, fun hnone => ?_⟩
  · rw [List.length_map, Text.length_splitOn]
  · obtain ⟨value, -, hvalue⟩ := List.mem_map.mp hnone
    exact Option.some_ne_none value hvalue

theorem size_ofBlob (blob : Text) : (ofBlob blob).size = blob.count ',' + 1 := by
  rw [← length_texts, texts_ofBlob, Text.length_splitOn]

/-- Arguments that were read from a blob are not the unset ones: their slots hold texts. -/
theorem ofBlob_ne_unset (blob : Text) : ofBlob blob ≠ unset := by
  intro h
  obtain ⟨values, hvalues, -, hnone⟩ := exists_slots_ofBlob blob
  rw [hvalues, unset, slots.injEq] at h
  rw [h] at hnone
  exact hnone List.mem_cons_self

/-! ### Reading a slot -/

/-- Behind the last slot there is nothing to read. -/
theorem slot_of_size_le {a : Arguments} {i : Nat} (h : a.size ≤ i) : a.slot i = [] := by
  rw [← length_texts] at h
  rw [slot, List.getD_eq_getElem?_getD, List.getElem?_eq_none h, Option.getD_none]

/-- The text in a slot of a blob is the one between the commas that the slot stands between. -/
theorem slot_ofBlob_eq_iff {blob piece : Text} {i : Nat} (h : i < (ofBlob blob).size) :
    (ofBlob blob).slot i = piece ↔ Text.Between ',' i blob piece := by
  rw [← length_texts, texts_ofBlob] at h
  rw [← Text.getElem?_splitOn_eq_some_iff, slot, texts_ofBlob, List.getD_eq_getElem?_getD,
    List.getElem?_eq_getElem h, Option.getD_some, Option.some.injEq]

/-! ### Slots written as a blob -/

/-- Slots that are written as a blob are read back, with the empty text for nothing, exactly if there is
one and no text has a comma in it. -/
theorem ofBlob_joined_eq_iff (a : Arguments) :
    ofBlob (a.joined [',']) = ofValues a.texts ↔ a.texts ≠ [] ∧ ∀ text ∈ a.texts, ',' ∉ text := by
  have hsplit : ofBlob (a.joined [',']) = ofValues a.texts ↔
      (a.joined [',']).splitOn ',' = a.texts := by
    refine ⟨fun h => ?_, fun h => by rw [ofBlob, h]⟩
    rw [← texts_ofBlob, h, texts_ofValues]
  rw [hsplit]
  constructor
  · intro h
    refine ⟨?_, fun text htext => ?_⟩
    · rw [← h]
      exact List.splitOn_ne_nil ',' _
    · rw [← h] at htext
      exact Text.notMem_of_mem_splitOn htext
  · rintro ⟨hne, hfree⟩
    exact Text.splitOn_join hne hfree

/-- What slots read as has no comma in it if no text in them has one. -/
theorem comma_notMem_of_mem_texts {values : List (Option Text)}
    (h : ∀ text, some text ∈ values → ',' ∉ text) : ∀ text ∈ (slots values).texts, ',' ∉ text := by
  intro text htext
  obtain ⟨value, hvalue, rfl⟩ := List.mem_map.mp htext
  cases value with
  | none => exact List.not_mem_nil
  | some text => exact h text hvalue

/-- **A blob and its slots say the same.** The slots of a blob, joined with any text, are the blob with
this text in place of each comma, so joined with commas they are the blob. There is one more of them than
commas, each holds a text, which is the one between its boundaries, and behind the last one nothing is
read. Slots that are joined with commas are read back with the empty text for nothing, if there is a slot
and no text has a comma in it; read by position they are as before. -/
theorem slots_follow_commas_and_read_back :
    (∀ blob sep, (ofBlob blob).joined sep = blob.flatMap fun c => if c = ',' then sep else [c]) ∧
    (∀ blob, (ofBlob blob).joined [','] = blob) ∧
    (∀ blob, ∃ values, ofBlob blob = slots values ∧ values.length = blob.count ',' + 1 ∧
      none ∉ values) ∧
    (∀ blob i piece, i < blob.count ',' + 1 →
      ((ofBlob blob).slot i = piece ↔ Text.Between ',' i blob piece)) ∧
    (∀ blob i, blob.count ',' + 1 ≤ i → (ofBlob blob).slot i = []) ∧
    ∀ values, values ≠ [] → (∀ text, some text ∈ values → ',' ∉ text) →
      ofBlob ((slots values).joined [',']) = slots (values.map fun value => some (value.getD [])) ∧
      ∀ i, (ofBlob ((slots values).joined [','])).slot i = (slots values).slot i := by
  refine ⟨joined_ofBlob, joined_comma_ofBlob, exists_slots_ofBlob, fun blob i piece hi => ?_,
    fun blob i hi => ?_, fun values hne hfree => ?_⟩
  · exact slot_ofBlob_eq_iff (by rwa [size_ofBlob])
  · exact slot_of_size_le (by rwa [size_ofBlob])
  · have htexts : (slots values).texts ≠ [] := fun hnil => hne (List.map_eq_nil_iff.mp hnil)
    have hback : ofBlob ((slots values).joined [',']) = ofValues (slots values).texts :=
      (ofBlob_joined_eq_iff _).mpr ⟨htexts, comma_notMem_of_mem_texts hfree⟩
    refine ⟨?_, fun i => ?_⟩
    · rw [hback, ofValues, texts, List.map_map]
      rfl
    · rw [hback, slot, texts_ofValues, slot]

/-- Commas at both ends of a blob stand next to empty slots, and a slot that holds nothing comes back as
one of these. -/
theorem slots_follow_commas_of_outer_commas :
    (ofBlob ",a,".toList).joined "::".toList = "::a::".toList ∧
      (1 < ",a,".toList.count ',' + 1 ∧ (ofBlob ",a,".toList).slot 1 = ['a']) ∧
      (ofBlob ",a,".toList).slot 3 = [] ∧
      ofBlob ((slots [none, some ['a'], none]).joined [',']) = slots [some [], some ['a'], some []] := by
  obtain ⟨hjoined, -, -, hslot, hbehind, hback⟩ := slots_follow_commas_and_read_back
  have hbetween : Text.Between ',' 1 ",a,".toList ['a'] :=
    ⟨by decide, [','], [','], by decide, by decide, Or.inr ⟨[], rfl⟩, Or.inr ⟨[], rfl⟩⟩
  refine ⟨(hjoined _ _).trans (by decide), ⟨by decide, (hslot _ _ _ (by decide)).mpr hbetween⟩,
    hbehind _ _ (by decide), ?_⟩
  exact (hback [none, some ['a'], none] (by decide) (by simp)).1

end Arguments

end FormRules
