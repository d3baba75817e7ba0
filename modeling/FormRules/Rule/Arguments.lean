import FormRules.Text.Basic

/-!
# Arguments of a rule

The arguments of a rule are a list of slots, each holding a text or nothing. A slot is read by its
position or all slots are read together; a slot that holds nothing, and a slot that is not there,
reads as the empty text, so a reading never fails.

In a rule text the arguments stand behind the rule's name as one blob, cut at every comma
(`Arguments.ofBlob`). A rule written without a blob has two slots that hold nothing
(`Arguments.unset`). A rule made by hand may have no list of slots at all (`absent`), which an
unrecognized rule tells apart from an empty list.
-/

namespace FormRules

/-- What a rule is given besides its name. -/
inductive Arguments where
  /-- No list of slots at all. -/
  | absent
  /-- A list of slots, each with a text or nothing in it. -/
  | slots (values : List (Option Text))
  deriving DecidableEq, Repr, Inhabited

namespace Arguments

/-- The arguments of a rule written without a blob: two slots that hold nothing. -/
def unset : Arguments := slots [none, none]

/-- Slots that hold the given texts. -/
def ofValues (values : List Text) : Arguments := slots (values.map some)

/-- The slots of a blob: one text for each piece between commas, empty pieces kept. -/
def ofBlob (blob : Text) : Arguments := ofValues (blob.splitOn ',')

/-- Whether there is a list of slots. -/
def isGiven : Arguments → Bool
  | absent => false
  | slots _ => true

/-- How many slots there are. -/
def size : Arguments → Nat
  | absent => 0
  | slots values => values.length

/-- The texts of all slots in order, nothing read as the empty text. -/
def texts : Arguments → List Text
  | absent => []
  | slots values => values.map fun value => value.getD []

/-- The text in slot `i`; empty if the slot holds nothing or is not there. -/
def slot (a : Arguments) (i : Nat) : Text := a.texts.getD i []

/-- The texts of all slots with `sep` between neighbours. -/
def joined (a : Arguments) (sep : Text) : Text := Text.join sep a.texts

@[simp] theorem texts_ofValues (values : List Text) : texts (ofValues values) = values := by
  simp [ofValues, texts, Function.comp_def]

@[simp] theorem texts_ofBlob (blob : Text) : texts (ofBlob blob) = blob.splitOn ',' :=
  texts_ofValues _

/-- There are as many texts as slots. -/
theorem length_texts (a : Arguments) : a.texts.length = a.size := by
  cases a <;> simp [texts, size]

end Arguments

end FormRules
