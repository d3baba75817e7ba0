/-!
# Texts

A text is the list of its characters. Everything in this library is said of such lists, so that
splitting, joining and reading are functions on lists; strings occur only where a program reads its
input and prints its output.

Besides the type this module holds the one cut that rule tokens are made with: `Text.cut sep t` is
the part of `t` before the first `sep` and, if there is a `sep`, the part after it. The two parts
and the separator make up the text again (`cut_eq_some`), and the first part is free of the
separator (`sep_notMem_cut`).
-/

namespace FormRules

/-- A text: its characters in order. -/
abbrev Text := List Char

namespace Text

/-- The text before the first `sep` and, if `sep` occurs, the text after it. -/
def cut (sep : Char) : Text → Text × Option Text
  | [] => ([], none)
  | c :: t => if c = sep then ([], some t) else (c :: (cut sep t).1, (cut sep t).2)

/-- The pieces of a text, with `sep` written between neighbours. -/
def join (sep : Text) (pieces : List Text) : Text := List.intercalate sep pieces

/-- How many bytes a text takes in UTF-8. -/
def byteLength (t : Text) : Nat := t.foldr (fun c n => c.utf8Size + n) 0

theorem cut_cons_self (sep : Char) (t : Text) : cut sep (sep :: t) = ([], some t) := by simp [cut]

theorem cut_cons_of_ne {sep c : Char} (h : c ≠ sep) (t : Text) :
    cut sep (c :: t) = (c :: (cut sep t).1, (cut sep t).2) := by simp [cut, h]

/-- The part before the first separator does not hold it. -/
theorem sep_notMem_cut (sep : Char) (t : Text) : sep ∉ (cut sep t).1 := by
  induction t with
  | nil => simp [cut]
  | cons c t ih =>
    by_cases h : c = sep
    · simp [cut, h]
    · simp [cut, h, ih, Ne.symm h]

/-- A text without the separator is its own first part. -/
theorem cut_eq_none {sep : Char} {t : Text} (h : (cut sep t).2 = none) : (cut sep t).1 = t := by
  induction t with
  | nil => rfl
  | cons c t ih =>
    by_cases hc : c = sep
    · simp [cut, hc] at h
    · simp only [cut, hc, if_false] at h ⊢
      rw [ih h]

/-- The two parts and the separator between them make up the text. -/
theorem cut_eq_some {sep : Char} {t rest : Text} (h : (cut sep t).2 = some rest) :
    (cut sep t).1 ++ sep :: rest = t := by
  induction t with
  | nil => simp [cut] at h
  | cons c t ih =>
    by_cases hc : c = sep
    · simp_all [cut]
    · simp only [cut, hc, if_false] at h ⊢
      rw [List.cons_append, ih h]

end Text

end FormRules
