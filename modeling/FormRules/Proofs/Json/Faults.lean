import FormRules.Proofs.Flat.Scalar
import FormRules.Proofs.Json.Document
import FormRules.Proofs.Json.Numbers

/-!
# The first fault of a document

A document is read from its beginning, and a fault is met before anything behind it is looked at. So a
value of the wrong kind is the fault of a document, whatever follows it, if what stands in front of it
is well formed (`readDocument_of_breaksAt`). How much of such a value has to stand there, so that it is
known for what it is, is said by `OtherValue` (`wrongValue_of_otherValue`).
-/

namespace FormRules.Json

open Outcome

/-! ### Values of the wrong kind -/

/-- A number of the wrong kind is read before it is refused. -/
theorem wrongValue_of_number {c : Char} (hc : c = '-' ∨ Text.isDigit c = true) (wanted : Wanted)
    {t rest : Text} {n : Number} (h : readNumber (c :: t) = .ok (n, rest)) :
    wrongValue wanted (c :: t) = .mismatch ⟨n.found, wanted⟩ := by
  have hif : (c = '-' || Text.isDigit c) = true := by simpa using hc
  generalize hw : c :: t = w at h ⊢
  unfold wrongValue
  split
  case h_1 => cases hw
  case h_8 c' t' _ _ _ _ _ _ =>
    obtain ⟨rfl, rfl⟩ := List.cons.inj hw
    simp only [hif, if_true, h]
    rfl
  all_goals
    obtain ⟨rfl, -⟩ := List.cons.inj hw
    exact absurd hc (by decide)

/-- A text with a value in front that is no string, and what is found there. An array or an object is
known by its bracket and a word by its last letter, whatever stands behind; a number has to end. -/
inductive OtherValue : Text → Found → Prop where
  /-- The opening bracket of an array. -/
  | sequence (t : Text) : OtherValue ('[' :: t) .sequence
  /-- The opening brace of an object. -/
  | map (t : Text) : OtherValue ('{' :: t) .map
  /-- The null value. -/
  | null (t : Text) : OtherValue ("null".toList ++ t) .null
  /-- A truth value. -/
  | boolean (b : Bool) (t : Text) : OtherValue (booleanText b ++ t) (.boolean b)
  /-- An integer, up to its last digit. -/
  | integer {w t : Text} {n : Int} : IntegerText w n → EndsNumber t →
      OtherValue (w ++ t) (.integer n)

/-- A value that is no string is the fault where a value of another kind is wanted. -/
theorem wrongValue_of_otherValue {t : Text} {found : Found} (h : OtherValue t found)
    (wanted : Wanted) : wrongValue wanted t = .mismatch ⟨found, wanted⟩ := by
  cases h with
  | sequence t => rfl
  | map t => rfl
  | null t => rfl
  | boolean b t => cases b <;> rfl
  | integer hw ht =>
    have hread := readNumber_integerText hw ht
    obtain ⟨c, u, rfl, hc⟩ := exists_cons_of_integerText hw
    exact wrongValue_of_number hc wanted hread

/-- The first character of a value that is no string is neither a blank nor a quote. -/
theorem head_otherValue {t : Text} {found : Found} (h : OtherValue t found) :
    ∃ c u, t = c :: u ∧ isBlank c = false ∧ c ≠ '"' := by
  cases h with
  | sequence t => exact ⟨_, _, rfl, by decide, by decide⟩
  | map t => exact ⟨_, _, rfl, by decide, by decide⟩
  | null t => exact ⟨_, _, rfl, by decide, by decide⟩
  | boolean b t => cases b <;> exact ⟨_, _, rfl, by decide, by decide⟩
  | integer hw _ =>
    obtain ⟨c, u, rfl, hc⟩ := exists_cons_of_integerText hw
    refine ⟨c, _, rfl, ?_, ?_⟩
    · rw [← Bool.not_eq_true, isBlank_iff]
      rintro (rfl | rfl | rfl | rfl) <;> exact absurd hc (by decide)
    · rintro rfl
      exact absurd hc (by decide)

/-- A truth value or an integer in its compact form is such a value. -/
theorem otherValue_scalar {v : Scalar} (hv : ¬ v.IsString) {t : Text} (ht : EndsNumber t) :
    OtherValue (v.compact ++ t) v.found := by
  cases v with
  | string s => exact absurd ⟨s, rfl⟩ hv
  | boolean b => exact .boolean b t
  | integer n =>
    have hlo := n.le_toInt
    have hhi := n.toInt_lt
    have hbound : wordBound = 18446744073709551616 := rfl
    exact .integer (integerText_signedDecimal hlo (by omega)) ht

/-! ### The fault of a member -/

/-- A member with a value that is no string fails with what is found there. -/
theorem readMember_of_otherValue {key name b₁ b₂ t : Text} {found : Found}
    (hkey : StringText key name) (hb₁ : Blanks b₁) (hb₂ : Blanks b₂) (ht : OtherValue t found) :
    readMember (key ++ (b₁ ++ ':' :: (b₂ ++ t))) = .error (.mismatch ⟨found, .string⟩) := by
  have hwrong := wrongValue_of_otherValue ht .string
  obtain ⟨c, v, rfl, hc, hquote⟩ := head_otherValue ht
  obtain ⟨u, hu, rfl⟩ := hkey
  have hread : readString (u ++ ['"'] ++ (b₁ ++ ':' :: (b₂ ++ c :: v))) =
      .ok (name, b₁ ++ ':' :: (b₂ ++ c :: v)) :=
    readString_eq_ok_iff.mpr ⟨u, hu, by simp⟩
  have hrules : readRules (c :: v) = .error (wrongValue .string (c :: v)) := by
    unfold readRules
    split
    · rename_i heq
      exact absurd (List.cons.inj heq).1 hquote
    · rfl
  rw [readMember_eq, List.cons_append, pass_eq_ok_iff.mpr rfl, ok_bind, hread, ok_bind,
    skipBlanks_append_cons hb₁ (by decide), pass_eq_ok_iff.mpr rfl, ok_bind,
    skipBlanks_append_cons hb₂ hc, hrules, hwrong, error_bind]

/-! ### The first fault -/

/-- Members with a comma and blanks behind each. -/
inductive LeadingMembers : Text → List (Text × Text) → Prop where
  /-- No members. -/
  | nil : LeadingMembers [] []
  /-- One more member in front. -/
  | cons {w b u : Text} {m : Text × Text} {ms : List (Text × Text)} : Member w m → Blanks b →
      LeadingMembers u ms → LeadingMembers (w ++ ',' :: (b ++ u)) (m :: ms)

/-- The first of some members that fails decides, if the members before it are well formed. -/
theorem readMembers_of_fault {u t : Text} {ms : List (Text × Text)} {e : Fault}
    (hu : LeadingMembers u ms) (ht : readMember ('"' :: t) = .error e) :
    readMembers (u ++ '"' :: t) = .error e := by
  induction hu with
  | nil => rw [List.nil_append, readMembers_eq_readBehind, ht, error_bind]
  | @cons w b u m ms hm hb hu ih =>
    obtain ⟨entry, b', hentry, hb', rfl⟩ := hm
    have hskip : skipBlanks (b ++ (u ++ '"' :: t)) = u ++ '"' :: t := by
      rw [skipBlanks_append hb]
      cases hu with
      | nil => exact skipBlanks_cons (by decide) t
      | cons hm _ _ =>
        obtain ⟨v, rfl⟩ := exists_eq_quote_cons_of_member hm
        exact skipBlanks_cons (by decide) _
    have htext : entry ++ b' ++ ',' :: (b ++ u) ++ '"' :: t =
        entry ++ (b' ++ ',' :: (b ++ (u ++ '"' :: t))) := by
      simp
    rw [htext, readMembers_eq_readBehind, readMember_append hentry, ok_bind,
      skipBlanks_append_cons hb' (by decide), readBehind, hskip, ih]
    rfl

/-- Behind an opening brace and some well-formed members, a member that fails is the fault of the
document, whatever stands behind it. -/
theorem readDocument_of_fault {b₁ b₂ u t : Text} {ms : List (Text × Text)} {e : Fault}
    (hb₁ : Blanks b₁) (hb₂ : Blanks b₂) (hu : LeadingMembers u ms)
    (ht : readMember ('"' :: t) = .error e) :
    readDocument (b₁ ++ '{' :: (b₂ ++ (u ++ '"' :: t))) = .error e := by
  obtain ⟨v, hv⟩ : ∃ v, u ++ '"' :: t = '"' :: v := by
    cases hu with
    | nil => exact ⟨t, rfl⟩
    | cons hm _ _ =>
      obtain ⟨v, rfl⟩ := exists_eq_quote_cons_of_member hm
      exact ⟨_, rfl⟩
  have hmembers := readMembers_of_fault hu ht
  have hobject : readObject (b₂ ++ (u ++ '"' :: t)) = .error e := by
    rw [hv] at hmembers ⊢
    rw [readObject, skipBlanks_append_cons hb₂ (by decide)]
    exact hmembers
  rw [readDocument, skipBlanks_append_cons hb₁ (by decide)]
  show (readObject _ >>= _) = _
  rw [hobject, error_bind]

/-! ### Documents with a value of the wrong kind -/

/-- A text that is a well-formed document up to a value that is no string, and what is found there: an
opening brace, some members with a comma behind each, a name, a colon and the value. What stands behind
the front of the value is free. -/
def BreaksAt (t : Text) (found : Found) : Prop :=
  ∃ b₁ b₂ u ms key name b₃ b₄ v, Blanks b₁ ∧ Blanks b₂ ∧ LeadingMembers u ms ∧
    StringText key name ∧ Blanks b₃ ∧ Blanks b₄ ∧ OtherValue v found ∧
    t = b₁ ++ '{' :: (b₂ ++ (u ++ (key ++ (b₃ ++ ':' :: (b₄ ++ v)))))

theorem readDocument_of_breaksAt {t : Text} {found : Found} (h : BreaksAt t found) :
    readDocument t = .error (.mismatch ⟨found, .string⟩) := by
  obtain ⟨b₁, b₂, u, ms, key, name, b₃, b₄, v, hb₁, hb₂, hu, hkey, hb₃, hb₄, hv, rfl⟩ := h
  have hmember := readMember_of_otherValue hkey hb₃ hb₄ hv
  obtain ⟨w, -, rfl⟩ := hkey
  exact readDocument_of_fault hb₁ hb₂ hu hmember

/-- A document that begins with the bracket of an array fails with it. -/
theorem readDocument_of_bracket {b : Text} (hb : Blanks b) (t : Text) :
    readDocument (b ++ '[' :: t) = .error (.mismatch ⟨.sequence, .map⟩) := by
  rw [readDocument, skipBlanks_append_cons hb (by decide)]
  rfl

/-- **The first fault of a document decides, whatever follows it.** A document that is well formed up
to a value that is no string fails with what is found there, and one that begins as an array fails with
that; neither depends on what stands behind. -/
theorem read_json_first_fault :
    (∀ t found, BreaksAt t found →
      ∃ f, Form.read .json t = .error f ∧ f.cause = .json (.mismatch ⟨found, .string⟩) ∧
        f.cause.detail? =
          some ("invalid type: ".toList ++ found.message ++ ", expected a string".toList)) ∧
    ∀ b t, Blanks b →
      ∃ f, Form.read .json (b ++ '[' :: t) = .error f ∧
        f.cause = .json (.mismatch ⟨.sequence, .map⟩) ∧
        f.cause.detail? = some "invalid type: sequence, expected a map".toList := by
  refine ⟨fun t found h => ?_, fun b t hb => ?_⟩
  · refine ⟨⟨[.readingForm .json], .json (.mismatch ⟨found, .string⟩)⟩, ?_, rfl, ?_⟩
    · rw [Form.read, readForm, readDocument_of_breaksAt h]
      rfl
    · exact congrArg some (List.append_assoc ..)
  · refine ⟨⟨[.readingForm .json], .json (.mismatch ⟨.sequence, .map⟩)⟩, ?_, rfl, rfl⟩
    rw [Form.read, readForm, readDocument_of_bracket hb]
    rfl

/-- The second member names the first field again and has a number behind its colon; neither the
bracket behind the number nor what is missing counts. -/
theorem read_json_first_fault_of_number :
    ∃ f g, Form.read .json "\x7b\"a\":\"x\" ,\"\\u0061\": -5]".toList = .error f ∧
      f.cause.detail? = some "invalid type: integer \x60-5\x60, expected a string".toList ∧
      Form.read .json "\n[\"a\"".toList = .error g ∧
      g.cause.detail? = some "invalid type: sequence, expected a map".toList := by
  obtain ⟨hmember, hbracket⟩ := read_json_first_fault
  have hx : StringText "\"x\"".toList ['x'] :=
    ⟨['x'], .cons (.plain (by decide) (by decide) (by decide)) .nil, rfl⟩
  have ha : StringText "\"a\"".toList ['a'] :=
    ⟨['a'], .cons (.plain (by decide) (by decide) (by decide)) .nil, rfl⟩
  have hunit : CodeUnit "0061".toList 0x61 := hexNumber?_eq_some_iff.mp (by decide)
  have ha' : StringText "\"\\u0061\"".toList ['a'] :=
    ⟨"\\u0061".toList, .cons (.escape (.unicode (.single hunit (by unfold Leading; omega)
      (by unfold Trailing; omega)))) .nil, rfl⟩
  have hblank : Blanks [' '] := skipBlanks_eq_nil_iff.mp rfl
  have hmembers : LeadingMembers "\"a\":\"x\" ,".toList [(['a'], ['x'])] :=
    .cons (w := "\"a\":\"x\" ".toList)
      ⟨_, _, ⟨_, [], [], _, ha, .nil, .nil, hx, rfl⟩, hblank, rfl⟩ .nil .nil
  have hfive : IntegerText ['-', '5'] (-5) :=
    .minus ⟨List.forall_mem_singleton.mpr (by decide), by decide, by decide⟩ (by decide) (by decide)
  have hnumber : OtherValue "-5]".toList (.integer (-5)) :=
    .integer hfive (endsNumber_cons (c := ']') (by decide) [])
  obtain ⟨f, hf, -, hdetail⟩ := hmember "\x7b\"a\":\"x\" ,\"\\u0061\": -5]".toList (.integer (-5))
    ⟨[], [], _, _, _, _, [], [' '], _, .nil, .nil, hmembers, ha', .nil, hblank, hnumber, rfl⟩
  obtain ⟨g, hg, -, hdetail'⟩ := hbracket ['\n'] "\"a\"".toList (skipBlanks_eq_nil_iff.mp rfl)
  exact ⟨f, g, hf, hdetail, hg, hdetail'⟩

end FormRules.Json
