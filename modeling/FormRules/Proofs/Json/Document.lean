import FormRules.Form.Load
import FormRules.Proofs.Json.Strings
import FormRules.Proofs.OrderedMap.Records

/-!
# Reading documents by the grammar

The reader of documents accepts exactly the texts of the grammar, and what it answers is the form
into which the members are written in document order. Blanks are not part of what a reader answers,
so before the reader of the next part they are passed as far as they go (`skipBlanks_eq_cons_iff`).
-/

namespace FormRules.Json

open Outcome

/-! ### Blanks -/

theorem isBlank_iff (c : Char) : isBlank c = true ↔ c = ' ' ∨ c = '\t' ∨ c = '\n' ∨ c = '\r' := by
  simp [isBlank, or_assoc]

theorem Blanks.nil : Blanks [] := fun _ h => absurd h List.not_mem_nil

theorem skipBlanks_append {b : Text} (h : Blanks b) (t : Text) :
    skipBlanks (b ++ t) = skipBlanks t :=
  List.dropWhile_append_of_pos fun c hc => (isBlank_iff c).mpr (h c hc)

theorem skipBlanks_cons {c : Char} (hc : isBlank c = false) (t : Text) :
    skipBlanks (c :: t) = c :: t :=
  List.dropWhile_cons_of_neg (by simp [hc])

theorem skipBlanks_append_cons {b : Text} (h : Blanks b) {c : Char} (hc : isBlank c = false)
    (t : Text) : skipBlanks (b ++ c :: t) = c :: t := by
  rw [skipBlanks_append h, skipBlanks_cons hc]

/-- What is skipped at the front of a text is a run of blanks. -/
theorem exists_blanks_append (t : Text) : ∃ b, Blanks b ∧ t = b ++ skipBlanks t := by
  refine ⟨t.takeWhile isBlank, fun c hc => (isBlank_iff c).mp ?_, ?_⟩
  · exact List.all_eq_true.mp List.all_takeWhile c hc
  · exact List.takeWhile_append_dropWhile.symm

theorem skipBlanks_eq_nil_iff {t : Text} : skipBlanks t = [] ↔ Blanks t := by
  constructor
  · intro h
    obtain ⟨b, hb, ht⟩ := exists_blanks_append t
    rw [ht, h, List.append_nil]
    exact hb
  · intro h
    rw [← List.append_nil t, skipBlanks_append h]
    rfl

/-- The first character that is not skipped is the first that is no blank. -/
theorem skipBlanks_eq_cons_iff {c : Char} (hc : isBlank c = false) {t u : Text} :
    skipBlanks t = c :: u ↔ ∃ b, Blanks b ∧ t = b ++ c :: u := by
  constructor
  · intro h
    obtain ⟨b, hb, ht⟩ := exists_blanks_append t
    exact ⟨b, hb, by rw [← h]; exact ht⟩
  · rintro ⟨b, hb, rfl⟩
    exact skipBlanks_append_cons hb hc u

/-! ### Entries -/

theorem readRules_eq_ok_iff {t s rest : Text} :
    readRules t = .ok (s, rest) ↔ ∃ w, StringText w s ∧ t = w ++ rest := by
  constructor
  · intro h
    unfold readRules at h
    split at h
    · obtain ⟨u, hu, rfl⟩ := readString_eq_ok_iff.mp h
      exact ⟨_, ⟨u, hu, rfl⟩, by simp⟩
    · cases h
  · rintro ⟨w, ⟨u, hu, rfl⟩, rfl⟩
    rw [List.cons_append, readRules]
    exact readString_eq_ok_iff.mpr ⟨u, hu, by simp⟩

/-- A string begins with a quote, which is no blank. -/
theorem skipBlanks_stringText {w s : Text} (h : StringText w s) (t : Text) :
    skipBlanks (w ++ t) = w ++ t := by
  obtain ⟨u, -, rfl⟩ := h
  exact skipBlanks_cons (by decide) _

theorem readMember_eq_ok_iff {t rest : Text} {m : Text × Text} :
    readMember t = .ok (m, rest) ↔ ∃ w, Entry w m ∧ t = w ++ rest := by
  obtain ⟨name, rules⟩ := m
  constructor
  · intro h
    unfold readMember at h
    simp only [bind_eq_ok_iff, pass_eq_ok_iff] at h
    obtain ⟨t₁, rfl, ⟨name', t₂⟩, h₂, t₃, h₃, ⟨rules', t₄⟩, h₄, h⟩ := h
    cases h
    obtain ⟨u, hu, rfl⟩ := readString_eq_ok_iff.mp h₂
    obtain ⟨b₁, hb₁, rfl⟩ := (skipBlanks_eq_cons_iff (by decide)).mp h₃
    obtain ⟨value, hvalue, h₄⟩ := readRules_eq_ok_iff.mp h₄
    obtain ⟨b₂, hb₂, ht₃⟩ := exists_blanks_append t₃
    rw [h₄] at ht₃
    subst ht₃
    exact ⟨_, ⟨_, b₁, b₂, value, ⟨u, hu, rfl⟩, hb₁, hb₂, hvalue, rfl⟩, by simp⟩
  · rintro ⟨w, ⟨key, b₁, b₂, value, ⟨u, hu, rfl⟩, hb₁, hb₂, hvalue, rfl⟩, rfl⟩
    unfold readMember
    simp only [bind_eq_ok_iff, pass_eq_ok_iff]
    refine ⟨_, rfl, (name, b₁ ++ ':' :: (b₂ ++ (value ++ rest))),
      readString_eq_ok_iff.mpr ⟨u, hu, by simp⟩, b₂ ++ (value ++ rest),
      (skipBlanks_eq_cons_iff (by decide)).mpr ⟨b₁, hb₁, rfl⟩, (rules, rest), ?_, rfl⟩
    rw [skipBlanks_append hb₂, skipBlanks_stringText hvalue]
    exact readRules_eq_ok_iff.mpr ⟨value, hvalue, rfl⟩

theorem readMember_append {w : Text} {m : Text × Text} (h : Entry w m) (q : Text) :
    readMember (w ++ q) = .ok (m, q) :=
  readMember_eq_ok_iff.mpr ⟨w, h, rfl⟩

/-! ### Members -/

/-- The reader of members, by what stands behind the first one. -/
theorem readMembers_eq (t : Text) :
    readMembers t = readMember t >>= fun r =>
      match skipBlanks r.2 with
      | [] => .error .unfinished
      | '}' :: u => .ok ([r.1], u)
      | ',' :: u => (readMembers (skipBlanks u)).map fun s => (r.1 :: s.1, s.2)
      | _ :: _ => .error .malformed := by
  rw [readMembers]
  split
  · rename_i e he
    rw [he]
    rfl
  · rename_i m rest he
    simp only [he, ok_bind]
    split <;> rename_i hb <;> simp only [hb]

/-- Reads what stands behind a member and the blanks behind it. -/
def readBehind (m : Text × Text) : Text → Except Fault (List (Text × Text) × Text)
  | [] => .error .unfinished
  | '}' :: t => .ok ([m], t)
  | ',' :: t => (readMembers (skipBlanks t)).map fun r => (m :: r.1, r.2)
  | _ :: _ => .error .malformed

theorem readMembers_eq_readBehind (t : Text) :
    readMembers t = readMember t >>= fun r => readBehind r.1 (skipBlanks r.2) := by
  rw [readMembers_eq]
  rfl

/-- A member begins with a quote. -/
theorem exists_eq_quote_cons_of_member {w : Text} {m : Text × Text} (h : Member w m) :
    ∃ u, w = '"' :: u := by
  obtain ⟨_, b, ⟨_, _, _, _, ⟨u, -, rfl⟩, -, -, -, rfl⟩, -, rfl⟩ := h
  exact ⟨_, rfl⟩

/-- A list of members begins with a quote, which is no blank. -/
theorem exists_eq_quote_cons_of_members {w : Text} {ms : List (Text × Text)} (h : Members w ms) :
    ∃ u, w = '"' :: u := by
  cases h with
  | last h => exact exists_eq_quote_cons_of_member h
  | more h _ _ =>
    obtain ⟨u, rfl⟩ := exists_eq_quote_cons_of_member h
    exact ⟨_, rfl⟩

/-- Up to and with the closing brace every list of members is read, and nothing else. -/
theorem readMembers_eq_ok_iff {t rest : Text} {ms : List (Text × Text)} :
    readMembers t = .ok (ms, rest) ↔ ∃ w, Members w ms ∧ t = w ++ '}' :: rest := by
  constructor
  · intro h
    fun_induction readMembers t generalizing ms with
    | case1 => cases h
    | case2 => cases h
    | case3 t m r hm u hr =>
      cases h
      obtain ⟨e, he, rfl⟩ := readMember_eq_ok_iff.mp hm
      obtain ⟨b, hb, rfl⟩ := (skipBlanks_eq_cons_iff (by decide)).mp hr
      exact ⟨e ++ b, .last ⟨e, b, he, hb, rfl⟩, by simp⟩
    | case4 t m r hm u hr _ ih =>
      rw [map_eq_ok_iff] at h
      obtain ⟨⟨ms', rest'⟩, hms, h⟩ := h
      cases h
      obtain ⟨e, he, rfl⟩ := readMember_eq_ok_iff.mp hm
      obtain ⟨b, hb, rfl⟩ := (skipBlanks_eq_cons_iff (by decide)).mp hr
      obtain ⟨w, hw, hu⟩ := ih hms
      obtain ⟨b', hb', hu'⟩ := exists_blanks_append u
      rw [hu] at hu'
      subst hu'
      exact ⟨e ++ b ++ ',' :: (b' ++ w), .more ⟨e, b, he, hb, rfl⟩ hb' hw, by simp⟩
    | case5 => cases h
  · rintro ⟨w, hw, rfl⟩
    induction hw with
    | last h =>
      obtain ⟨e, b, he, hb, rfl⟩ := h
      rw [readMembers_eq, bind_eq_ok_iff]
      refine ⟨_, readMember_eq_ok_iff.mpr ⟨e, he, List.append_assoc ..⟩, ?_⟩
      simp only [skipBlanks_append_cons hb (show isBlank '}' = false by decide)]
    | @more _ b' u _ ms h hb' hu ih =>
      obtain ⟨e, b, he, hb, rfl⟩ := h
      have hskip : skipBlanks (b' ++ u ++ '}' :: rest) = u ++ '}' :: rest := by
        obtain ⟨v, rfl⟩ := exists_eq_quote_cons_of_members hu
        rw [List.append_assoc]
        exact skipBlanks_append_cons hb' (by decide) _
      rw [readMembers_eq, bind_eq_ok_iff]
      refine ⟨_, readMember_eq_ok_iff.mpr ⟨e, he, by rw [List.append_assoc, List.append_assoc]⟩, ?_⟩
      simp only [List.cons_append, skipBlanks_append_cons hb (show isBlank ',' = false by decide),
        hskip, ih]
      rfl

/-! ### Documents -/

theorem readObject_blanks_append {b : Text} (hb : Blanks b) (t : Text) :
    readObject (b ++ t) = readObject t := by
  rw [readObject, readObject, skipBlanks_append hb]

theorem readDocument_blanks_append {b : Text} (hb : Blanks b) (t : Text) :
    readDocument (b ++ t) = readDocument t := by
  rw [readDocument, readDocument, skipBlanks_append hb]

/-- Behind an opening brace every object's rest is read, and nothing else. -/
theorem readObject_eq_ok_iff {t rest : Text} {ms : List (Text × Text)} :
    readObject t = .ok (ms, rest) ↔
      ∃ b w, Blanks b ∧ Body w ms ∧ t = b ++ (w ++ '}' :: rest) := by
  constructor
  · intro h
    obtain ⟨b, hb, ht⟩ := exists_blanks_append t
    unfold readObject at h
    split at h
    · rename_i u hu
      cases h
      exact ⟨b, [], hb, .none, by rw [ht, hu]; rfl⟩
    · obtain ⟨w, hw, hu⟩ := readMembers_eq_ok_iff.mp h
      exact ⟨b, w, hb, .some hw, by rw [ht, hu]⟩
  · rintro ⟨b, w, hb, hw, rfl⟩
    unfold readObject
    cases hw with
    | none =>
      simp only [List.nil_append, skipBlanks_append_cons hb (show isBlank '}' = false by decide)]
    | some hw =>
      obtain ⟨u, rfl⟩ := exists_eq_quote_cons_of_members hw
      rw [List.cons_append, skipBlanks_append_cons hb (by decide)]
      exact readMembers_eq_ok_iff.mpr ⟨_, hw, rfl⟩

/-- The documents that are read are those of the grammar. -/
theorem readDocument_eq_ok_iff {t : Text} {ms : List (Text × Text)} :
    readDocument t = .ok ms ↔ Document t ms := by
  constructor
  · intro h
    obtain ⟨b₁, hb₁, ht⟩ := exists_blanks_append t
    unfold readDocument at h
    split at h
    · rename_i u hu
      simp only [bind_eq_ok_iff] at h
      obtain ⟨⟨ms', rest⟩, hobj, h⟩ := h
      obtain ⟨b₂, w, hb₂, hw, rfl⟩ := readObject_eq_ok_iff.mp hobj
      rw [hu] at ht
      split at h
      · rename_i hrest
        rw [List.isEmpty_iff, skipBlanks_eq_nil_iff] at hrest
        cases h
        exact ⟨b₁, b₂, w, rest, hb₁, hb₂, hw, hrest, ht⟩
      · cases h
    · cases h
  · rintro ⟨b₁, b₂, w, b₃, hb₁, hb₂, hw, hb₃, rfl⟩
    unfold readDocument
    simp only [skipBlanks_append_cons hb₁ (show isBlank '{' = false by decide), bind_eq_ok_iff]
    refine ⟨(ms, b₃), readObject_eq_ok_iff.mpr ⟨b₂, w, hb₂, hw, rfl⟩, ?_⟩
    rw [skipBlanks_eq_nil_iff.mpr hb₃]
    rfl

/-! ### Forms -/

theorem read_json_eq_ok_iff_document (t : Text) (form : Form) :
    Form.read .json t = .ok form ↔ ∃ members, Document t members ∧ form = .ofList members := by
  rw [Form.read, mapError_eq_ok_iff, mapError_eq_ok_iff, readForm, map_eq_ok_iff]
  constructor
  · rintro ⟨members, h, rfl⟩
    exact ⟨members, readDocument_eq_ok_iff.mp h, rfl⟩
  · rintro ⟨members, h, rfl⟩
    exact ⟨members, readDocument_eq_ok_iff.mpr h, rfl⟩

/-- **The JSON documents that are forms** are those of the grammar, and the form is what the members
make when they are written one after the other: a field stands where its name came first, in
whatever spelling, and has the rule text that came with it last. -/
theorem read_json_accepts_documents (t : Text) :
    ((∃ form, Form.read .json t = .ok form) ↔ ∃ members, Document t members) ∧
    ∀ form, Form.read .json t = .ok form ↔
      ∃ members, Document t members ∧ form = .ofList members ∧ form.Records members := by
  constructor
  · constructor
    · rintro ⟨form, h⟩
      obtain ⟨members, hdoc, -⟩ := (read_json_eq_ok_iff_document t form).mp h
      exact ⟨members, hdoc⟩
    · rintro ⟨members, hdoc⟩
      exact ⟨_, (read_json_eq_ok_iff_document t _).mpr ⟨members, hdoc, rfl⟩⟩
  · intro form
    rw [read_json_eq_ok_iff_document]
    constructor
    · rintro ⟨members, hdoc, rfl⟩
      exact ⟨members, hdoc, rfl, OrderedMap.records_ofList members⟩
    · rintro ⟨members, hdoc, rfl, -⟩
      exact ⟨members, hdoc, rfl⟩

/-- The third member names the first field again. -/
example :
    (Form.read .json
      "\x7b \"a\" : \"x\", \"b\":\"\", \"\\u0061\":\"\\ud83d\\uDE00\"\x7d".toList).toOption.map
      (·.entries) = some [(['a'], ['😀']), (['b'], [])] := by
  decide +kernel

end FormRules.Json
