import FormRules.Proofs.Json.Layout
import FormRules.Proofs.Json.RoundTrip
import Mathlib.Data.List.Basic

/-!
# Written values are told apart

No two values have the same written form, although names and strings may hold every character that
the form is made of. The reason is that a written form shows its own end: what stands behind it cannot
be mistaken for a part of it. `Delimits` says this of a way of writing and of one thing that is
written, and it passes from parts to wholes: from strings to members (`delimits_pair`) and from the
parts between two brackets to all of them (`join_append_inj`), so that it holds of all values
(`delimits_compact`).

The pretty form follows without another induction, since the compact form is what is left of it.
-/

namespace FormRules.Json

/-- The written form of something shows its end: if a text begins with it and also with the written
form of another thing, then both are the same thing, and the same text follows. -/
def Delimits {α : Type} (f : α → Text) (a : α) : Prop :=
  ∀ b t u, f a ++ t = f b ++ u → a = b ∧ t = u

/-! ### Strings and members -/

theorem readString_content (s t : Text) : readString (content s ++ '"' :: t) = .ok (s, t) :=
  readString_eq_ok_iff.mpr ⟨content s, content_content s, rfl⟩

/-- A written string is read back up to its closing quote, so it shows its end. -/
theorem delimits_quoted (s : Text) : Delimits quoted s := by
  intro s' t u h
  have hcontent : content s ++ '"' :: t = content s' ++ '"' :: u := by simpa [quoted] using h
  have hread := readString_content s t
  rw [hcontent, readString_content, Except.ok.injEq, Prod.mk.injEq] at hread
  exact ⟨hread.1.symm, hread.2.symm⟩

/-- A member shows its end if its value does. -/
theorem delimits_pair {m : Text × Value} (h : Delimits Value.compact m.2) :
    Delimits Value.compactPair m := by
  intro m' t u heq
  simp only [Value.compactPair, List.append_assoc, List.cons_append] at heq
  obtain ⟨hname, hrest⟩ := delimits_quoted m.1 _ _ _ heq
  obtain ⟨hvalue, htail⟩ := h _ _ _ (List.cons.inj hrest).2
  exact ⟨Prod.ext hname hvalue, htail⟩

/-! ### Parts between brackets -/

theorem join_cons_append (w : Text) (ws : List Text) (t : Text) :
    Text.join [','] (w :: ws) ++ t = w ++ (ws.flatMap (',' :: ·) ++ t) := by
  induction ws generalizing w with
  | nil => simp [Text.join]
  | cons w' ws ih =>
    have hjoin : Text.join [','] (w :: w' :: ws) = w ++ ',' :: Text.join [','] (w' :: ws) := by
      simp [Text.join]
    rw [hjoin, List.append_assoc, List.cons_append, ih, List.flatMap_cons, List.cons_append,
      List.cons_append, List.append_assoc]

section Parts

variable {α : Type} {f : α → Text} {closing : Char}

/-- Parts that show their ends, each behind a comma, are told apart up to the closing bracket. -/
theorem flatMap_append_inj {l l' : List α} (hf : ∀ a ∈ l, Delimits f a) (hclosing : closing ≠ ',')
    {t u : Text} (h : (l.map f).flatMap (',' :: ·) ++ closing :: t =
      (l'.map f).flatMap (',' :: ·) ++ closing :: u) : l = l' ∧ t = u := by
  induction l generalizing l' with
  | nil =>
    cases l' with
    | nil => exact ⟨rfl, (List.cons.inj h).2⟩
    | cons b l' => exact absurd (List.cons.inj h).1 hclosing
  | cons a l ih =>
    cases l' with
    | nil => exact absurd (List.cons.inj h).1.symm hclosing
    | cons b l' =>
      obtain ⟨ha, hl⟩ := List.forall_mem_cons.mp hf
      simp only [List.map_cons, List.flatMap_cons, List.append_assoc, List.cons_append] at h
      obtain ⟨rfl, hrest⟩ := ha b _ _ (List.cons.inj h).2
      obtain ⟨rfl, htail⟩ := ih hl hrest
      exact ⟨rfl, htail⟩

/-- Parts with commas between them are told apart up to the closing bracket, if no part begins with
that bracket. -/
theorem join_append_inj {l l' : List α} (hf : ∀ a ∈ l, Delimits f a) (hclosing : closing ≠ ',')
    (hhead : ∀ a t u, f a ++ t ≠ closing :: u) {t u : Text}
    (h : Text.join [','] (l.map f) ++ closing :: t = Text.join [','] (l'.map f) ++ closing :: u) :
    l = l' ∧ t = u := by
  cases l with
  | nil =>
    cases l' with
    | nil => exact ⟨rfl, (List.cons.inj h).2⟩
    | cons b l' =>
      rw [List.map_cons, join_cons_append] at h
      exact absurd h.symm (hhead b _ _)
  | cons a l =>
    cases l' with
    | nil =>
      rw [List.map_cons, join_cons_append] at h
      exact absurd h (hhead a _ _)
    | cons b l' =>
      obtain ⟨ha, hl⟩ := List.forall_mem_cons.mp hf
      rw [List.map_cons, List.map_cons, join_cons_append, join_cons_append] at h
      obtain ⟨rfl, hrest⟩ := ha b _ _ h
      obtain ⟨rfl, htail⟩ := flatMap_append_inj hl hclosing hrest
      exact ⟨rfl, htail⟩

end Parts

/-! ### Values -/

namespace Value

/-- The first character of a written value. -/
def opening : Value → Char
  | string _ => '"'
  | boolean b => if b then 't' else 'f'
  | array _ => '['
  | object _ => '{'

theorem exists_compact_eq_cons (v : Value) : ∃ w, v.compact = v.opening :: w := by
  cases v with
  | boolean b => cases b <;> exact ⟨_, rfl⟩
  | _ => exact ⟨_, rfl⟩

/-- Values with the same text in front of something begin with the same character. -/
theorem opening_eq_of_compact_append {v w : Value} {t u : Text}
    (h : v.compact ++ t = w.compact ++ u) : v.opening = w.opening := by
  obtain ⟨v', hv⟩ := exists_compact_eq_cons v
  obtain ⟨w', hw⟩ := exists_compact_eq_cons w
  rw [hv, hw] at h
  exact (List.cons.inj h).1

/-- Two values of one kind; truth values are of one kind if they are the same. -/
inductive SameKind : Value → Value → Prop where
  /-- Two strings. -/
  | string (s s' : Text) : SameKind (string s) (string s')
  /-- The same truth value. -/
  | boolean (b : Bool) : SameKind (boolean b) (boolean b)
  /-- Two arrays. -/
  | array (items items' : List Value) : SameKind (array items) (array items')
  /-- Two objects. -/
  | object (members members' : List (Text × Value)) : SameKind (object members) (object members')

/-- The first character tells the kind of a value. -/
theorem sameKind_of_opening_eq {v w : Value} (h : v.opening = w.opening) : SameKind v w := by
  cases v with
  | string s =>
    cases w with
    | string s' => exact .string s s'
    | boolean b => cases b <;> simp [opening] at h
    | _ => simp [opening] at h
  | boolean b =>
    cases w with
    | boolean b' =>
      have hb : b = b' := by cases b <;> cases b' <;> simp [opening] at h ⊢
      exact hb ▸ .boolean b
    | _ => cases b <;> simp [opening] at h
  | array items =>
    cases w with
    | array items' => exact .array items items'
    | boolean b => cases b <;> simp [opening] at h
    | _ => simp [opening] at h
  | object members =>
    cases w with
    | object members' => exact .object members members'
    | boolean b => cases b <;> simp [opening] at h
    | _ => simp [opening] at h

theorem sameKind_of_compact_append {v w : Value} {t u : Text}
    (h : v.compact ++ t = w.compact ++ u) : SameKind v w :=
  sameKind_of_opening_eq (opening_eq_of_compact_append h)

/-- No value begins with a closing bracket. -/
theorem compact_append_ne_bracket (v : Value) (t u : Text) : v.compact ++ t ≠ ']' :: u := by
  intro h
  obtain ⟨w, hw⟩ := exists_compact_eq_cons v
  rw [hw] at h
  have hopening := (List.cons.inj h).1
  cases v with
  | boolean b => cases b <;> simp [opening] at hopening
  | _ => simp [opening] at hopening

end Value

/-- **A written value shows its end**, whatever its names and strings hold. -/
theorem delimits_compact (v : Value) : Delimits Value.compact v := by
  induction v using Value.recOn_parts with
  | string s =>
    intro w t u h
    cases Value.sameKind_of_compact_append h with
    | string _ s' =>
      obtain ⟨rfl, htail⟩ := delimits_quoted s s' t u h
      exact ⟨rfl, htail⟩
  | boolean b =>
    intro w t u h
    cases Value.sameKind_of_compact_append h with
    | boolean => exact ⟨rfl, List.append_cancel_left h⟩
  | array items ih =>
    intro w t u h
    cases Value.sameKind_of_compact_append h with
    | array _ items' =>
      rw [Value.compact, Value.compact, Value.compactItems_eq_map, Value.compactItems_eq_map] at h
      simp only [List.cons_append, List.append_assoc, List.cons.injEq, true_and] at h
      obtain ⟨rfl, htail⟩ := join_append_inj ih (by decide) Value.compact_append_ne_bracket h
      exact ⟨rfl, htail⟩
  | object members ih =>
    intro w t u h
    cases Value.sameKind_of_compact_append h with
    | object _ members' =>
      have hmembers : ∀ m ∈ members, Delimits Value.compactPair m :=
        fun m hm => delimits_pair (ih m hm)
      have hquote : ∀ m t u, Value.compactPair m ++ t ≠ '}' :: u := by
        intro m t u heq
        exact absurd (List.cons.inj heq).1 (by decide)
      rw [Value.compact, Value.compact, Value.compactMembers_eq_map,
        Value.compactMembers_eq_map] at h
      simp only [List.cons_append, List.append_assoc, List.cons.injEq, true_and] at h
      obtain ⟨rfl, htail⟩ := join_append_inj hmembers (by decide) hquote h
      exact ⟨rfl, htail⟩

theorem compact_injective : Function.Injective Value.compact := by
  intro v w h
  exact (delimits_compact v w [] [] (by rw [h])).1

/-- What is left of the pretty form is the compact form, so the pretty form tells values apart too. -/
theorem pretty_injective (level : Nat) : Function.Injective (Value.pretty level) := by
  intro v w h
  apply compact_injective
  rw [← dense_pretty v level, ← dense_pretty w level, h]

/-! ### Objects of strings in the pretty form -/

/-- The start of a line is a run of blanks. -/
theorem blanks_indent (level : Nat) : Blanks (Value.indent level) := by
  intro c hc
  exact Or.inl (List.eq_of_mem_replicate hc)

/-- A member with a space behind its colon, and blanks behind it. -/
theorem member_pretty (level : Nat) (m : Text × Text) {b : Text} (hb : Blanks b) :
    Member (Value.prettyPair level (m.1, .string m.2) ++ b) m := by
  have hentry : Entry (Value.prettyPair level (m.1, .string m.2)) m :=
    ⟨_, [], [' '], _, stringText_quoted m.1, .nil, skipBlanks_eq_nil_iff.mp rfl,
      stringText_quoted m.2, rfl⟩
  exact ⟨_, b, hentry, hb, rfl⟩

/-- Members on lines of their own are a list of members, behind the blanks at the first line's
start. -/
theorem exists_members_pretty (level : Nat) {b : Text} (hb : Blanks b) (m : Text × Text)
    (ms : List (Text × Text)) :
    ∃ w, Members w (m :: ms) ∧
      Text.join [',', '\n'] ((m :: ms).map fun m =>
        Value.indent level ++ Value.prettyPair level (m.1, .string m.2)) ++ b =
      Value.indent level ++ w := by
  induction ms generalizing m with
  | nil => exact ⟨_, .last (member_pretty level m hb), by simp [Text.join]⟩
  | cons m' ms ih =>
    obtain ⟨w, hw, hjoin⟩ := ih m'
    have hline : Blanks ('\n' :: Value.indent level) :=
      List.forall_mem_cons.mpr ⟨by simp, blanks_indent level⟩
    refine ⟨_, .more (member_pretty level m .nil) hline hw, ?_⟩
    have hcons : ∀ (v : Text) (vs : List Text), vs ≠ [] →
        Text.join [',', '\n'] (v :: vs) = v ++ ',' :: '\n' :: Text.join [',', '\n'] vs := by
      intro v vs hvs
      simp [Text.join, List.intercalate_cons_of_ne_nil hvs]
    rw [List.map_cons, hcons _ _ (by simp), List.append_assoc, List.cons_append, List.cons_append,
      hjoin]
    simp

/-- An object of strings in the pretty form is a document with its members. -/
theorem document_pretty_ofStrings (level : Nat) (ms : List (Text × Text)) :
    Document ((Value.ofStrings ms).pretty level) ms := by
  rw [Value.ofStrings, Value.pretty, Value.prettyMembers_eq_map, Value.block, List.map_map,
    List.map_map]
  cases ms with
  | nil => exact ⟨[], [], [], [], .nil, .nil, .none, .nil, rfl⟩
  | cons m ms =>
    have hend : Blanks ('\n' :: Value.indent level) :=
      List.forall_mem_cons.mpr ⟨by simp, blanks_indent level⟩
    have hline : Blanks ('\n' :: Value.indent (level + 1)) :=
      List.forall_mem_cons.mpr ⟨by simp, blanks_indent (level + 1)⟩
    obtain ⟨w, hw, hjoin⟩ := exists_members_pretty (level + 1) hend m ms
    refine ⟨[], '\n' :: Value.indent (level + 1), w, [], .nil, hline, .some hw, .nil, ?_⟩
    have htext := congrArg (fun t => '{' :: '\n' :: t ++ ['}']) hjoin
    rw [if_neg (by simp)]
    simpa [Function.comp_def] using htext

/-! ### Attributes of forms -/

theorem ofStrings_injective : Function.Injective Value.ofStrings := by
  intro ms ms' h
  have hmembers := Value.object.inj h
  refine List.map_injective_iff.mpr ?_ hmembers
  rintro ⟨name, t⟩ ⟨name', t'⟩ hm
  cases hm
  rfl

/-- Attributes of forms that are the same object are the same. -/
theorem toJson_injective : Function.Injective FormAttributes.toJson := by
  intro m n h
  have hentries := Value.object.inj h
  apply OrderedMap.eq_of_entries_eq
  refine List.map_injective_iff.mpr ?_ hentries
  rintro ⟨field, attributes⟩ ⟨field', attributes'⟩ he
  obtain ⟨rfl, hattributes⟩ := Prod.mk.inj he
  exact Prod.ext rfl (OrderedMap.eq_of_entries_eq (ofStrings_injective hattributes))

/-- A document with the entries of a map as its members is read as that map. -/
theorem read_json_of_document_entries {t : Text} {form : Form} (h : Document t form.entries) :
    Form.read .json t = .ok form :=
  (read_json_eq_ok_iff_document t form).mpr ⟨form.entries, h, form.ofList_entries.symm⟩

/-- **Printed attributes determine what was printed.** Two maps of attributes with the same compact
text are the same map, with the same fields, keys and values in the same order; so are two with the
same pretty text. In both texts each field has an object of its own behind its name, and that object
is read back as the attributes of the field, in order. -/
theorem printed_attributes_determine :
    (∀ m n : FormAttributes, (FormAttributes.toJson m).compact = (FormAttributes.toJson n).compact →
      m = n) ∧
    (∀ m n : FormAttributes,
      (FormAttributes.toJson m).pretty 0 = (FormAttributes.toJson n).pretty 0 → m = n) ∧
    ∀ m : FormAttributes,
      (FormAttributes.toJson m).compact =
        '{' :: Text.join [','] (m.entries.map fun e =>
          quoted e.1 ++ ':' :: (Attributes.toJson e.2).compact) ++ ['}'] ∧
      (FormAttributes.toJson m).pretty 0 =
        Value.block 0 '{' '}' (m.entries.map fun e =>
          quoted e.1 ++ ':' :: ' ' :: (Attributes.toJson e.2).pretty 1) ∧
      ∀ e ∈ m.entries, Form.read .json (Attributes.toJson e.2).compact = .ok e.2 ∧
        Form.read .json ((Attributes.toJson e.2).pretty 1) = .ok e.2 := by
  refine ⟨fun m n h => ?_, fun m n h => ?_, fun m => ⟨?_, ?_, fun e _ => ⟨?_, ?_⟩⟩⟩
  · exact toJson_injective (compact_injective h)
  · exact toJson_injective (pretty_injective 0 h)
  · rw [FormAttributes.toJson, Value.compact, Value.compactMembers_eq_map, List.map_map]
    rfl
  · rw [FormAttributes.toJson, Value.pretty, Value.prettyMembers_eq_map, List.map_map]
    rfl
  · exact read_json_of_document_entries (document_compact_ofStrings e.2.entries)
  · exact read_json_of_document_entries (document_pretty_ofStrings 1 e.2.entries)

/-- A field whose value holds what stands between members, and one without attributes: however the
map comes about, equal texts mean the same map, and the first object is read back. -/
theorem printed_attributes_determine_of_quotes :
    let inner : Attributes := .ofList [("k".toList, "x".toList), ("k".toList, "\",\"k\":\"".toList)]
    let m : FormAttributes :=
      .ofList [("a\"\x7b".toList, .empty), ([], .empty), ("a\"\x7b".toList, inner)]
    let n : FormAttributes := ⟨[("a\"\x7b".toList, inner), ([], .empty)], by decide⟩
    let n' : FormAttributes := (OrderedMap.empty.insert "a\"\x7b".toList inner).insert [] .empty
    (FormAttributes.toJson m).compact = (FormAttributes.toJson n).compact ∧ m = n ∧
      (FormAttributes.toJson n).pretty 0 = (FormAttributes.toJson n').pretty 0 ∧ n = n' ∧
      Form.read .json ((Attributes.toJson inner).pretty 1) = .ok inner := by
  intro inner m n n'
  obtain ⟨hcompact, hpretty, hobjects⟩ := printed_attributes_determine
  have hm : (FormAttributes.toJson m).compact = (FormAttributes.toJson n).compact := by decide
  have hn : (FormAttributes.toJson n).pretty 0 = (FormAttributes.toJson n').pretty 0 := by decide
  have hread := ((hobjects n).2.2 ("a\"\x7b".toList, inner) List.mem_cons_self).2
  exact ⟨hm, hcompact m n hm, hn, hpretty n n' hn, hread⟩

end FormRules.Json
