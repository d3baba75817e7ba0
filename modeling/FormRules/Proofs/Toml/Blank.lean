import FormRules.Proofs.Text.Pieces
import FormRules.Proofs.Toml.Declarations
import FormRules.Toml.Blank

/-!
# What stands between the parts of a document

Blanks are passed as far as they go (`skipBlanks_append`), and between three quotes blanks and line
ends are (`skipBlankLines_append`). Behind the last part of a line there are blanks, a comment and the
line end (`passLineEnd_append`), so a value is followed by one of few characters (`EndsValue`).
-/

namespace FormRules.Toml

/-! ### Blanks -/

theorem isBlank_iff (c : Char) : isBlank c = true ↔ c = ' ' ∨ c = '\t' := by
  simp [isBlank]

theorem Blanks.nil : Blanks [] := fun _ h => absurd h List.not_mem_nil

theorem skipBlanks_append {b t : Text} (hb : Blanks b) (ht : Text.Stops isBlank t) :
    skipBlanks (b ++ t) = t :=
  Text.dropWhile_append (fun c hc => (isBlank_iff c).mpr (hb c hc)) ht

theorem skipBlanks_of_stops {t : Text} (ht : Text.Stops isBlank t) : skipBlanks t = t :=
  skipBlanks_append .nil ht

/-! ### Blanks and line ends -/

theorem BlankLines.of_blanks {b w : Text} (hb : Blanks b) (hw : BlankLines w) :
    BlankLines (b ++ w) := by
  induction b with
  | nil => exact hw
  | cons c b ih =>
    obtain ⟨hc, hb⟩ := List.forall_mem_cons.mp hb
    exact .blank hc (ih hb)

/-- Blanks and line ends are passed up to the first character that is neither. -/
theorem skipBlankLines_append {w u : Text} (hw : BlankLines w)
    (hu : NotAhead [' ', '\t', '\n', '\r'] u) : skipBlankLines (w ++ u) = u := by
  induction hw with
  | nil =>
    cases u with
    | nil => rfl
    | cons c u =>
      have hc := hu c rfl
      simp only [List.mem_cons, List.not_mem_nil, or_false, not_or] at hc
      rw [List.nil_append, skipBlankLines, if_neg (by simp [isBlank, hc])]
      exact fun _ hreturn _ => hc.2.2.2 hreturn
  | blank hc _ ih => rcases hc with rfl | rfl <;> exact ih
  | newline he _ ih => rcases he with rfl | rfl <;> exact ih

/-! ### The rest of a line -/

theorem isPlain_iff (c : Char) : isPlain c = true ↔ Plain c := by
  simp [isPlain, Plain]

/-- A text that can follow a value on its line: nothing, or one that begins with a blank, a comment or
a line end. -/
def EndsValue (t : Text) : Prop := ∀ c ∈ t.head?, c ∈ [' ', '\t', '#', '\n', '\r']

/-- What follows a value does not begin with a character of a class that has no such beginning. -/
theorem EndsValue.stops {t : Text} (h : EndsValue t) {p : Char → Bool}
    (hp : [' ', '\t', '#', '\n', '\r'].any p = false) : Text.Stops p t := by
  intro c hc
  rw [← Bool.not_eq_true]
  exact List.any_eq_false.mp hp c (h c hc)

/-- What can stand behind the last part of a line, and the lines behind this one: a line end with
them, or nothing at the end of the document. -/
inductive LineTail : Text → Text → Prop where
  /-- The end of the document. -/
  | stop : LineTail [] []
  /-- A line end. -/
  | more {e u : Text} : LineEnd e → LineTail (e ++ u) u

/-- Behind the last part of a line nothing stands but the beginning of a line end. -/
theorem LineTail.head {t u : Text} (h : LineTail t u) : ∀ c ∈ t.head?, c = '\n' ∨ c = '\r' := by
  cases h with
  | stop => exact fun c hc => by cases hc
  | more he =>
    rintro c hc
    rcases he with rfl | rfl
    · exact Or.inl (Option.some.inj hc).symm
    · exact Or.inr (Option.some.inj hc).symm

theorem LineTail.eq_nil {u : Text} (h : LineTail [] u) : u = [] := by
  generalize ht : ([] : Text) = t at h
  cases h with
  | stop => rfl
  | more he => rcases he with rfl | rfl <;> cases ht

/-- The lines behind a line are shorter than the document from some part of the line on. -/
theorem LineTail.length_lt {t u : Text} (h : LineTail t u) {w : Text} (hne : w ++ t ≠ []) :
    u.length < (w ++ t).length := by
  cases h with
  | stop => exact List.length_pos_iff.mpr hne
  | more he =>
    rcases he with rfl | rfl <;> simp only [List.length_append, List.length_cons] <;> omega

/-- Behind the blanks at the end of a line there is a comment or the line end. -/
theorem head_comment_append {k t u : Text} (hk : Comment k) (ht : LineTail t u) :
    ∀ c ∈ (k ++ t).head?, c = '#' ∨ c = '\n' ∨ c = '\r' := by
  intro c hc
  cases hk with
  | none => exact Or.inr (ht.head c hc)
  | some _ => exact Or.inl (Option.some.inj hc).symm

theorem stops_comment_append {k t u : Text} (hk : Comment k) (ht : LineTail t u) :
    Text.Stops isBlank (k ++ t) := by
  intro c hc
  rcases head_comment_append hk ht c hc with rfl | rfl | rfl <;> rfl

/-- What stands behind the value on its line can follow a value. -/
theorem endsValue_append {b k t u : Text} (hb : Blanks b) (hk : Comment k) (ht : LineTail t u) :
    EndsValue (b ++ (k ++ t)) := by
  intro c hc
  cases b with
  | nil => rcases head_comment_append hk ht c hc with rfl | rfl | rfl <;> decide
  | cons d b =>
    rw [← Option.some.inj hc]
    rcases hb d List.mem_cons_self with rfl | rfl <;> decide

theorem skipComment_append {k t u : Text} (hk : Comment k) (ht : LineTail t u) :
    skipComment (k ++ t) = t := by
  cases hk with
  | none =>
    rw [List.nil_append]
    unfold skipComment
    split
    · exact absurd (ht.head '#' rfl) (by decide)
    · rfl
  | some hw =>
    refine Text.dropWhile_append (fun c hc => (isPlain_iff c).mpr (hw c hc)) fun c hc => ?_
    rcases ht.head c hc with rfl | rfl <;> rfl

/-- The rest of a line is passed up to the next line. -/
theorem passLineEnd_append {b k t u : Text} (hb : Blanks b) (hk : Comment k) (ht : LineTail t u) :
    passLineEnd (b ++ (k ++ t)) = some u := by
  rw [passLineEnd, skipBlanks_append hb (stops_comment_append hk ht), skipComment_append hk ht]
  cases ht with
  | stop => rfl
  | more he => rcases he with rfl | rfl <;> rfl

end FormRules.Toml
