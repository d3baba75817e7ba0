import FormRules.Attributes.Json
import FormRules.Proofs.Json.Values

/-!
# The pretty form and the compact form

The pretty form of a value is the compact form with spaces and line feeds added outside its strings.
Where a character stands is told by an automaton that reads from the left: a quote begins a string, a
quote ends it, and a backslash inside a string takes the next character along, whatever it is
(`Position.next`). `dense` deletes the spaces and line feeds that the automaton finds outside strings,
and `literals` lists the strings that it finds, with their quotes and in the written form.

`dense` leaves the strings of every text as they are (`literals_dense`). For written values the
automaton is outside again behind each part, so the parts can be looked at one by one: `LaysOut` says
this of a text, with what is left of it and with its strings (`laysOut_pretty`).
-/

namespace FormRules.Json

/-! ### Positions -/

/-- Where in a text a character stands. -/
inductive Position where
  /-- Outside the strings. -/
  | outside
  /-- Inside a string. -/
  | inside
  /-- Inside a string, behind a backslash that takes the character along. -/
  | escaped
  deriving DecidableEq

/-- The position behind a character. -/
def Position.next : Position → Char → Position
  | outside, c => if c = '"' then inside else outside
  | inside, c => if c = '"' then outside else if c = '\\' then escaped else inside
  | escaped, _ => inside

/-- Whether a character is a space or a line feed outside the strings. -/
def isLayout (p : Position) (c : Char) : Bool := p = .outside && (c = ' ' || c = '\n')

/-- A character that outside the strings neither is layout nor begins a string. -/
def IsMark (c : Char) : Prop := isLayout .outside c = false ∧ c ≠ '"'

instance : DecidablePred IsMark := fun c =>
  inferInstanceAs (Decidable (isLayout .outside c = false ∧ c ≠ '"'))

/-- A text, read from some position on, without the spaces and line feeds outside its strings. -/
def dense : Position → Text → Text
  | _, [] => []
  | p, c :: t => if isLayout p c then dense p t else c :: dense (p.next c) t

/-- The strings of a text in their written form with their quotes, in order. If the text is read from
inside a string, what is left of this one comes first. -/
def literals : Position → Text → List Text
  | .outside, [] => []
  | .outside, c :: t =>
    if c = '"' then (literals .inside t).modifyHead (c :: ·) else literals .outside t
  | .inside, [] => [[]]
  | .inside, c :: t =>
    if c = '"' then [c] :: literals .outside t
    else (literals (Position.inside.next c) t).modifyHead (c :: ·)
  | .escaped, [] => [[]]
  | .escaped, c :: t => (literals .inside t).modifyHead (c :: ·)

/-- The strings of a text stay as they are when the spaces and line feeds outside them are deleted. -/
theorem literals_dense (p : Position) (t : Text) : literals p (dense p t) = literals p t := by
  induction t generalizing p with
  | nil => rfl
  | cons c t ih =>
    rw [dense]
    cases p with
    | outside =>
      by_cases hc : isLayout .outside c = true
      · have hquote : c ≠ '"' := by
          rintro rfl
          exact absurd hc (by decide)
        rw [if_pos hc, ih, literals, if_neg hquote]
      · rw [if_neg hc, literals, literals]
        by_cases hquote : c = '"'
        · rw [if_pos hquote, if_pos hquote, Position.next, if_pos hquote, ih]
        · rw [if_neg hquote, if_neg hquote, Position.next, if_neg hquote, ih]
    | inside =>
      rw [if_neg (by simp [isLayout]), literals, literals, ih]
      by_cases hquote : c = '"'
      · rw [if_pos hquote, if_pos hquote, Position.next, if_pos hquote, ih]
      · rw [if_neg hquote, if_neg hquote]
    | escaped =>
      rw [if_neg (by simp [isLayout]), literals, literals, Position.next, ih]

/-! ### Laid out texts -/

/-- A text that begins and ends outside strings: what is left of it without the spaces and line feeds
between its parts, and its strings, whatever stands behind it. -/
structure LaysOut (w d : Text) (ss : List Text) : Prop where
  /-- What is left of the text stands before what is left of the text behind it. -/
  dense : ∀ t, dense .outside (w ++ t) = d ++ dense .outside t
  /-- The strings of the text come before those of the text behind it. -/
  literals : ∀ t, literals .outside (w ++ t) = ss ++ literals .outside t

namespace LaysOut

variable {w w' d d' : Text} {ss ss' : List Text}

theorem nil : LaysOut [] [] [] := ⟨fun _ => rfl, fun _ => rfl⟩

theorem append (h : LaysOut w d ss) (h' : LaysOut w' d' ss') :
    LaysOut (w ++ w') (d ++ d') (ss ++ ss') where
  dense t := by rw [List.append_assoc, h.dense, h'.dense, List.append_assoc]
  literals t := by rw [List.append_assoc, h.literals, h'.literals, List.append_assoc]

/-- Nothing is left of a space or a line feed. -/
theorem layout {c : Char} (hc : isLayout .outside c = true) (h : LaysOut w d ss) :
    LaysOut (c :: w) d ss where
  dense t := by rw [List.cons_append, Json.dense, if_pos hc, h.dense]
  literals t := by
    have hquote : c ≠ '"' := by
      rintro rfl
      exact absurd hc (by decide)
    rw [List.cons_append, Json.literals, if_neg hquote, h.literals]

/-- Any other character that begins no string is left. -/
theorem mark {c : Char} (hc : IsMark c) (h : LaysOut w d ss) : LaysOut (c :: w) (c :: d) ss where
  dense t := by
    rw [List.cons_append, Json.dense, if_neg (by simp [hc.1]), Position.next, if_neg hc.2, h.dense,
      List.cons_append]
  literals t := by rw [List.cons_append, Json.literals, if_neg hc.2, h.literals]

/-- A text of such characters is left as it is. -/
theorem marks (h : w.all (fun c => IsMark c) = true) : LaysOut w w [] := by
  induction w with
  | nil => exact nil
  | cons c w ih =>
    rw [List.all_cons, Bool.and_eq_true, decide_eq_true_eq] at h
    exact (ih h.2).mark h.1

/-- The start of a line is nothing but layout. -/
theorem indent (level : Nat) (h : LaysOut w d ss) : LaysOut (Value.indent level ++ w) d ss := by
  rw [Value.indent]
  induction 2 * level with
  | zero => exact h
  | succ n ih => exact ih.layout rfl

/-- What is left of a text on its own, and its strings. -/
theorem eq (h : LaysOut w d ss) :
    Json.dense .outside w = d ∧ Json.literals .outside w = ss := by
  have hdense := h.dense []
  have hliterals := h.literals []
  rw [List.append_nil] at hdense hliterals
  exact ⟨hdense.trans (List.append_nil d), hliterals.trans (List.append_nil ss)⟩

end LaysOut

/-! ### Strings -/

/-- A part of a string: nothing of it is deleted, and it belongs to the string that is being read. -/
structure StaysInside (w : Text) : Prop where
  /-- Nothing is deleted. -/
  dense : ∀ t, dense .inside (w ++ t) = w ++ dense .inside t
  /-- The part belongs to the first string. -/
  literals : ∀ t, literals .inside (w ++ t) = (literals .inside t).modifyHead (w ++ ·)

namespace StaysInside

variable {w w' : Text}

theorem nil : StaysInside [] where
  dense _ := rfl
  literals t := by
    cases h : Json.literals .inside t <;> simp [h]

theorem append (h : StaysInside w) (h' : StaysInside w') : StaysInside (w ++ w') where
  dense t := by rw [List.append_assoc, h.dense, h'.dense, List.append_assoc]
  literals t := by
    rw [List.append_assoc, h.literals, h'.literals, List.modifyHead_modifyHead]
    simp [Function.comp_def]

/-- A character that is no quote and no backslash. -/
theorem plain {c : Char} (hquote : c ≠ '"') (hslash : c ≠ '\\') : StaysInside [c] where
  dense t := by
    rw [List.singleton_append, Json.dense, if_neg (by simp [isLayout]), Position.next, if_neg hquote,
      if_neg hslash]
    rfl
  literals t := by
    rw [List.singleton_append, Json.literals, if_neg hquote, Position.next, if_neg hquote,
      if_neg hslash]
    rfl

/-- A backslash with any character behind it. -/
theorem escape (c : Char) : StaysInside ['\\', c] where
  dense t := by
    have hslash : isLayout .inside '\\' = false := rfl
    have hc : isLayout .escaped c = false := rfl
    simp [Json.dense, hslash, hc, Position.next]
  literals t := by
    simp [Json.literals, Position.next, Function.comp_def]

/-- A run of characters that are no quotes and no backslashes. -/
theorem of_forall (h : ∀ c ∈ w, c ≠ '"' ∧ c ≠ '\\') : StaysInside w := by
  induction w with
  | nil => exact nil
  | cons c w ih =>
    obtain ⟨⟨hquote, hslash⟩, hw⟩ := List.forall_mem_cons.mp h
    exact (plain hquote hslash).append (ih hw)

end StaysInside

/-- A digit is no quote and no backslash. -/
theorem hexDigit_ne {n : Nat} (h : n < 16) : Text.Hex.digit n ≠ '"' ∧ Text.Hex.digit n ≠ '\\' := by
  have hall : ∀ n < 16, Text.Hex.digit n ≠ '"' ∧ Text.Hex.digit n ≠ '\\' := by decide
  exact hall n h

/-- A written character is a part of a string. -/
theorem staysInside_escaped (c : Char) : StaysInside (escaped c) := by
  unfold escaped
  -- the seven characters that have a short escape
  iterate 7
    split
    · exact .escape _
  split
  · rename_i h
    have hdigits : ∀ d ∈ ['0', '0', Text.Hex.digit (c.toNat / 16), Text.Hex.digit (c.toNat % 16)],
        d ≠ '"' ∧ d ≠ '\\' := by
      have hhigh := hexDigit_ne (n := c.toNat / 16) (by omega)
      have hlow := hexDigit_ne (n := c.toNat % 16) (by omega)
      simp [hhigh, hlow]
    exact (StaysInside.escape 'u').append (.of_forall hdigits)
  · rename_i hquote hslash _ _ _ _ _ _
    exact .plain hquote hslash

theorem staysInside_content (s : Text) : StaysInside (content s) := by
  induction s with
  | nil => exact .nil
  | cons c s ih => exact (staysInside_escaped c).append ih

/-- A written string is left as it is, and it is a string of the text. -/
theorem laysOut_quoted (s : Text) : LaysOut (quoted s) (quoted s) [quoted s] where
  dense t := by
    have hquote : isLayout .outside '"' = false := rfl
    have hend : isLayout .inside '"' = false := rfl
    have hcontent := (staysInside_content s).dense ('"' :: t)
    simp [quoted, dense, hquote, hend, Position.next, hcontent]
  literals t := by
    have hcontent := (staysInside_content s).literals ('"' :: t)
    simp [quoted, literals, hcontent]

/-! ### Lines between brackets -/

/-- Parts with a comma and a line feed between them. -/
theorem laysOut_join {α : Type} {f g : α → Text} {ss : α → List Text} {items : List α}
    (h : ∀ a ∈ items, LaysOut (f a) (g a) (ss a)) :
    LaysOut (Text.join [',', '\n'] (items.map f)) (Text.join [','] (items.map g))
      (items.flatMap ss) := by
  induction items with
  | nil => exact .nil
  | cons a items ih =>
    obtain ⟨ha, hitems⟩ := List.forall_mem_cons.mp h
    cases items with
    | nil => simpa [Text.join] using ha
    | cons b items =>
      have hrest := ha.append (((ih hitems).layout (c := '\n') rfl).mark (c := ',') (by decide))
      simpa [Text.join] using hrest

/-- Parts on lines of their own between two brackets, and the same parts with commas only. -/
theorem laysOut_block {α : Type} {f g : α → Text} {ss : α → List Text} {items : List α}
    (level : Nat) {opening closing : Char} (hopening : IsMark opening)
    (hclosing : IsMark closing) (h : ∀ a ∈ items, LaysOut (f a) (g a) (ss a)) :
    LaysOut (Value.block level opening closing (items.map f))
      (opening :: Text.join [','] (items.map g) ++ [closing]) (items.flatMap ss) := by
  have hend : LaysOut [closing] [closing] [] := LaysOut.nil.mark hclosing
  by_cases hitems : items = []
  · subst hitems
    exact hend.mark hopening
  · have hlines : ∀ a ∈ items, LaysOut (Value.indent (level + 1) ++ f a) (g a) (ss a) :=
      fun a ha => (h a ha).indent (level + 1)
    have hbody := (laysOut_join hlines).append ((hend.indent level).layout (c := '\n') rfl)
    have hblock := (hbody.layout (c := '\n') rfl).mark hopening
    rw [Value.block, if_neg (by simpa using hitems), List.map_map]
    simpa [Function.comp_def] using hblock

/-! ### Values -/

namespace Value

mutual

/-- The strings of a value with their quotes, in order. The names of an object are among them. -/
def strings : Value → List Text
  | string t => [quoted t]
  | boolean _ => []
  | array items => stringsOfItems items
  | object members => stringsOfMembers members

/-- The strings of the items of an array. -/
def stringsOfItems : List Value → List Text
  | [] => []
  | v :: items => v.strings ++ stringsOfItems items

/-- The strings of the members of an object, each name in front of the strings of its value. -/
def stringsOfMembers : List (Text × Value) → List Text
  | [] => []
  | (name, v) :: members => (quoted name :: v.strings) ++ stringsOfMembers members

end

theorem stringsOfItems_eq_flatMap (items : List Value) :
    stringsOfItems items = items.flatMap strings := by
  induction items with
  | nil => rfl
  | cons v items ih => rw [stringsOfItems, ih, List.flatMap_cons]

theorem stringsOfMembers_eq_flatMap (members : List (Text × Value)) :
    stringsOfMembers members = members.flatMap fun m => quoted m.1 :: m.2.strings := by
  induction members with
  | nil => rfl
  | cons m members ih =>
    obtain ⟨name, v⟩ := m
    rw [stringsOfMembers, ih, List.flatMap_cons]

end Value

/-- A member in its pretty form is the compact form with a space behind the colon. -/
theorem laysOut_prettyPair {level : Nat} {m : Text × Value}
    (h : LaysOut (m.2.pretty level) m.2.compact m.2.strings) :
    LaysOut (Value.prettyPair level m) (Value.compactPair m) (quoted m.1 :: m.2.strings) :=
  (laysOut_quoted m.1).append ((h.layout (c := ' ') rfl).mark (c := ':') (by decide))

/-- **The pretty form** of a value is its compact form, laid out. -/
theorem laysOut_pretty (v : Value) (level : Nat) :
    LaysOut (v.pretty level) v.compact v.strings := by
  induction v using Value.recOn_parts generalizing level with
  | string t => exact laysOut_quoted t
  | boolean b =>
    have hmarks : (booleanText b).all (fun c => IsMark c) = true := by cases b <;> decide
    exact .marks hmarks
  | array items ih =>
    rw [Value.pretty, Value.compact, Value.strings, Value.prettyItems_eq_map,
      Value.compactItems_eq_map, Value.stringsOfItems_eq_flatMap]
    apply laysOut_block level (by decide) (by decide)
    intro v hv
    exact ih v hv (level + 1)
  | object members ih =>
    rw [Value.pretty, Value.compact, Value.strings, Value.prettyMembers_eq_map,
      Value.compactMembers_eq_map, Value.stringsOfMembers_eq_flatMap]
    apply laysOut_block level (by decide) (by decide)
    intro m hm
    exact laysOut_prettyPair (ih m hm (level + 1))

/-- Without the spaces and line feeds outside its strings the pretty form is the compact form. -/
theorem dense_pretty (v : Value) (level : Nat) : dense .outside (v.pretty level) = v.compact :=
  (laysOut_pretty v level).eq.1

theorem literals_pretty (v : Value) (level : Nat) :
    literals .outside (v.pretty level) = v.strings :=
  (laysOut_pretty v level).eq.2

/-- The compact form has the strings of the pretty one, since deleting layout keeps them. -/
theorem literals_compact (v : Value) : literals .outside v.compact = v.strings := by
  rw [← dense_pretty v 0, literals_dense, literals_pretty]

/-! ### Attributes of forms -/

theorem strings_ofStrings (members : List (Text × Text)) :
    (Value.ofStrings members).strings = members.flatMap fun m => [quoted m.1, quoted m.2] := by
  rw [Value.ofStrings, Value.strings, Value.stringsOfMembers_eq_flatMap, List.flatMap_map]
  rfl

/-- The strings of printed attributes: each field's name, and behind it the keys and values of its
attributes. -/
theorem strings_toJson (m : FormAttributes) :
    (FormAttributes.toJson m).strings = m.entries.flatMap fun e =>
      quoted e.1 :: e.2.entries.flatMap fun a => [quoted a.1, quoted a.2] := by
  rw [FormAttributes.toJson, Value.strings, Value.stringsOfMembers_eq_flatMap, List.flatMap_map]
  simp only [Attributes.toJson, strings_ofStrings]

/-- **The two printed forms of attributes are the same document.** Without the spaces and line feeds
outside its strings the pretty form is the compact form. The strings themselves are the same in both
forms, character by character: the names of the fields, the keys and the values, in order. -/
theorem pretty_attributes_without_layout (m : FormAttributes) :
    dense .outside ((FormAttributes.toJson m).pretty 0) = (FormAttributes.toJson m).compact ∧
    literals .outside ((FormAttributes.toJson m).pretty 0) =
      literals .outside (FormAttributes.toJson m).compact ∧
    literals .outside (FormAttributes.toJson m).compact = m.entries.flatMap fun e =>
      quoted e.1 :: e.2.entries.flatMap fun a => [quoted a.1, quoted a.2] := by
  refine ⟨dense_pretty _ 0, ?_, ?_⟩
  · rw [literals_pretty, literals_compact]
  · rw [literals_compact, strings_toJson]

/-- Spaces, an escaped quote and a backslash before the closing quote stay inside their strings. -/
example : dense .outside "\x7b\n  \"a \\\" b\": \"\\\\\",\n  \"c\": \x7b\x7d\n\x7d".toList =
    "\x7b\"a \\\" b\":\"\\\\\",\"c\":\x7b\x7d\x7d".toList := by
  decide

end FormRules.Json
