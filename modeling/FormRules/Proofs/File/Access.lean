import FormRules.File.View

/-!
# Texts of files

A path leads to a text if it leads to a file whose bytes are the text in UTF-8 (`HoldsText`), and
otherwise there is one cause for which it does not (`Withholds`). Both are said of the view alone.
Fetching a text answers with the one or the other (`readText_eq_ok_iff`, `readText_eq_error_iff`), so it
never gives a text that is not there, and it looks at nothing but what the path leads to.
-/

namespace FormRules

/-- Bytes stand for a text if they are its characters in UTF-8, one after the other. -/
theorem Text.ofBytes_eq_ok_iff (bytes : ByteArray) (t : Text) :
    Text.ofBytes bytes = .ok t ↔ bytes = t.utf8Encode := by
  unfold Text.ofBytes String.fromUTF8?
  by_cases h : bytes.IsValidUTF8
  · rw [dif_pos h]
    simp only [Except.ok.injEq]
    constructor
    · rintro rfl
      rw [← String.toByteArray_ofList, String.ofList_toList]
      rfl
    · intro hbytes
      have hs : String.fromUTF8 bytes h = String.ofList t := by
        rw [← String.toByteArray_inj, String.toByteArray_ofList, ← hbytes]
        rfl
      rw [hs, String.toList_ofList]
  · rw [dif_neg h]
    constructor
    · intro hok
      cases hok
    · intro hbytes
      exact absurd ⟨t, hbytes⟩ h

theorem Text.ofBytes_eq_error_iff (bytes : ByteArray) (fault : AccessFault) :
    Text.ofBytes bytes = .error fault ↔
      fault = .notUtf8 ∧ ∀ t : Text, bytes ≠ t.utf8Encode := by
  cases h : Text.ofBytes bytes with
  | ok t =>
    constructor
    · intro herror
      cases herror
    · rintro ⟨-, hnone⟩
      exact absurd ((ofBytes_eq_ok_iff bytes t).mp h) (hnone t)
  | error fault' =>
    have hnone : ∀ t : Text, bytes ≠ t.utf8Encode := by
      intro t hbytes
      rw [(ofBytes_eq_ok_iff bytes t).mpr hbytes] at h
      cases h
    have hfault : fault' = .notUtf8 := by
      unfold Text.ofBytes at h
      split at h <;> cases h
      rfl
    rw [hfault, Except.error.injEq, eq_comm]
    exact (and_iff_left hnone).symm

namespace FileView

/-- The path leads to a file whose bytes are the text in UTF-8. -/
def HoldsText (files : FileView) (path t : Text) : Prop := files path = .ok (.file t.utf8Encode)

/-- The path leads to no text, for the cause. -/
inductive Withholds (files : FileView) (path : Text) : AccessFault → Prop where
  /-- The path leads to nothing. -/
  | nothing {fault : AccessFault} : files path = .error fault → Withholds files path fault
  /-- The path leads to a directory. -/
  | directory : files path = .ok .directory → Withholds files path .isDirectory
  /-- The path leads to something that cannot be read. -/
  | unreadable {fault : AccessFault} : files path = .ok (.unreadable fault) →
      Withholds files path fault
  /-- The path leads to a file whose bytes are no text in UTF-8. -/
  | notUtf8 {bytes : ByteArray} : files path = .ok (.file bytes) →
      (∀ t : Text, bytes ≠ t.utf8Encode) → Withholds files path .notUtf8

variable (files : FileView) (path : Text)

/-- The text that is fetched is the one that the path leads to. -/
theorem readText_eq_ok_iff (t : Text) : files.readText path = .ok t ↔ files.HoldsText path t := by
  unfold readText HoldsText
  cases files path with
  | error fault => simp
  | ok entry =>
    cases entry with
    | directory => simp
    | unreadable fault => simp
    | file bytes => simp [Text.ofBytes_eq_ok_iff]

/-- If no text is fetched, the path leads to none, for the cause that is told. -/
theorem readText_eq_error_iff (fault : AccessFault) :
    files.readText path = .error fault ↔ files.Withholds path fault := by
  constructor
  · intro h
    rw [readText] at h
    cases hentry : files path with
    | error fault' =>
      rw [hentry] at h
      cases h
      exact .nothing hentry
    | ok entry =>
      rw [hentry] at h
      cases entry with
      | directory =>
        cases h
        exact .directory hentry
      | unreadable fault' =>
        cases h
        exact .unreadable hentry
      | file bytes =>
        obtain ⟨rfl, hnone⟩ := (Text.ofBytes_eq_error_iff bytes fault).mp h
        exact .notUtf8 hentry hnone
  · rintro (hentry | hentry | hentry | ⟨hentry, hnone⟩)
    · rw [readText, hentry]
    · rw [readText, hentry]
    · rw [readText, hentry]
    · rw [readText, hentry]
      exact (Text.ofBytes_eq_error_iff _ _).mpr ⟨rfl, hnone⟩

/-- A path leads to a text, or there is a cause for which it does not. -/
theorem exists_withholds (h : ¬ ∃ t, files.HoldsText path t) : ∃ fault, files.Withholds path fault := by
  cases hread : files.readText path with
  | ok t => exact absurd ⟨t, (readText_eq_ok_iff files path t).mp hread⟩ h
  | error fault => exact ⟨fault, (readText_eq_error_iff files path fault).mp hread⟩

end FileView

end FormRules
