import FormRules.Mismatch

/-!
# Faults of JSON documents

A document is refused for one of three causes: it goes on in a way that no JSON text does, it ends
too early, or it is fine so far and holds a value of the wrong kind. A document is read from its
beginning, and the first fault is the one that counts. `pass` reads one wanted character.
-/

namespace FormRules.Json

/-- Why a document is refused. -/
inductive Fault where
  /-- The text goes on in a way that no JSON text does. -/
  | malformed
  /-- The text ends too early. -/
  | unfinished
  /-- A value is of the wrong kind. -/
  | mismatch (m : Mismatch)
  deriving DecidableEq, Repr

/-- Passes one wanted character at the front of a text. -/
def pass (c : Char) : Text → Except Fault Text
  | [] => .error .unfinished
  | d :: t => if d = c then .ok t else .error .malformed

/-- Passes a wanted word at the front of a text. -/
def passWord : Text → Text → Except Fault Text
  | [], t => .ok t
  | c :: cs, t => (pass c t).bind (passWord cs)

/-- A character is passed if it stands at the front, and is gone then. -/
theorem pass_eq_ok_iff {c : Char} {t rest : Text} : pass c t = .ok rest ↔ t = c :: rest := by
  cases t with
  | nil => simp [pass]
  | cons d t =>
    by_cases hd : d = c
    · simp [pass, hd]
    · simp [pass, hd]

theorem length_eq_of_pass {c : Char} {t rest : Text} (h : pass c t = .ok rest) :
    t.length = rest.length + 1 := by
  rw [pass_eq_ok_iff.mp h, List.length_cons]

/-- Whether a character may stand between the parts of a document. -/
def isBlank (c : Char) : Bool := c = ' ' || c = '\t' || c = '\n' || c = '\r'

/-- A text without the blanks at its front. -/
def skipBlanks (t : Text) : Text := t.dropWhile isBlank

theorem length_skipBlanks_le (t : Text) : (skipBlanks t).length ≤ t.length :=
  (List.dropWhile_suffix isBlank).length_le

end FormRules.Json
