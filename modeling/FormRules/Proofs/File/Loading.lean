import FormRules.Form.Load
import FormRules.Outcome
import FormRules.Proofs.File.Access
import FormRules.Settings.Load

/-!
# Loading from files

Loading a form goes through three stages: the format is told by the path alone, the text is fetched,
and the text is read in that format. Each stage is one equation (`load_of_no_format`,
`load_of_withholds`, `load_of_holdsText`), and for every path and every view of the files exactly one
of them applies. So a form that is loaded is one that is read from the text at the path, and a failure
of reading comes out with one context more, and otherwise as it was.

Settings are loaded in the same way, but a path that leads to nothing is no failure there
(`Settings.load_of_nothing`); one that leads to something without a text still is
(`Settings.load_of_withholds`). A failure of loading tells of the stage that failed by its outermost
context (`Settings.contexts_of_load_eq_error`, `Form.contexts_of_load_eq_error`).
-/

namespace FormRules

/-- The format of a path is told by its extension. -/
theorem FileFormat.ofPath?_eq_some_iff (path : Text) (format : FileFormat) :
    FileFormat.ofPath? path = some format ↔ Path.extension? path = some format.name := by
  unfold FileFormat.ofPath?
  cases Path.extension? path with
  | none => simp
  | some e =>
    have hnames : FileFormat.toml.name ≠ FileFormat.json.name := by decide
    by_cases htoml : e = FileFormat.toml.name
    · cases format <;> simp [htoml, hnames]
    · by_cases hjson : e = FileFormat.json.name
      · cases format <;> simp [hjson, hnames.symm]
      · cases format <;> simp [htoml, hjson]

/-- One more context around a failure that has contexts puts its message in front. -/
theorem Failure.message_within {f : Failure} (h : f.contexts ≠ []) (context : Context) :
    (f.within context).message = context.message ++ ": ".toList ++ f.message := by
  obtain ⟨contexts, cause⟩ := f
  have hmessages : messages ⟨contexts, cause⟩ = contexts.map Context.message :=
    if_neg (by simpa using h)
  have hne : contexts.map Context.message ≠ [] := by simpa using h
  rw [message, message, hmessages]
  exact List.intercalate_cons_of_ne_nil hne

namespace Form

/-- A failure of reading has one context, which names the format. -/
theorem contexts_of_read_eq_error {format : FileFormat} {t : Text} {f : Failure}
    (h : read format t = .error f) : f.contexts = [.readingForm format] := by
  obtain ⟨cause, -, rfl⟩ := Outcome.mapError_eq_error_iff.mp h
  rfl

variable (files : FileView) (path : Text)

/-! ### Stages -/

/-- A path without a known extension is refused whatever it leads to. -/
theorem load_of_no_format (h : ∀ format : FileFormat, Path.extension? path ≠ some format.name) :
    load files path = .error ⟨[], .unknownFormat path⟩ := by
  unfold load
  cases hformat : FileFormat.ofPath? path with
  | none => rfl
  | some format => exact absurd ((FileFormat.ofPath?_eq_some_iff path format).mp hformat) (h format)

variable {format : FileFormat} (hformat : Path.extension? path = some format.name)

include hformat

/-- A path that leads to no text is refused for the cause of that. -/
theorem load_of_withholds {fault : AccessFault} (h : files.Withholds path fault) :
    load files path = .error ⟨[.fetchingForm path], .access fault⟩ := by
  rw [load, (FileFormat.ofPath?_eq_some_iff path format).mpr hformat]
  simp only [(FileView.readText_eq_error_iff files path fault).mpr h]

/-- A text is read in the format of its path. -/
theorem load_of_holdsText {t : Text} (h : files.HoldsText path t) :
    load files path = (read format t).mapError (.within (.loadingForm format path)) := by
  rw [load, (FileFormat.ofPath?_eq_some_iff path format).mpr hformat]
  simp only [(FileView.readText_eq_ok_iff files path t).mpr h]

omit hformat

/-- Of the files only the one that the path leads to matters. -/
theorem load_congr {files files' : FileView} {path : Text} (h : files' path = files path) :
    load files' path = load files path := by
  unfold load FileView.readText
  rw [h]

/-- A failure of loading has a context, but for that of a path without a known extension. -/
theorem contexts_of_load_eq_error {files : FileView} {path : Text} {f : Failure}
    (h : load files path = .error f) :
    f = ⟨[], .unknownFormat path⟩ ∨ ∃ context rest, f.contexts = context :: rest := by
  by_cases hknown : ∃ format : FileFormat, Path.extension? path = some format.name
  · obtain ⟨format, hformat⟩ := hknown
    by_cases htext : ∃ t, files.HoldsText path t
    · obtain ⟨t, ht⟩ := htext
      rw [load_of_holdsText files path hformat ht] at h
      obtain ⟨g, -, rfl⟩ := Outcome.mapError_eq_error_iff.mp h
      exact Or.inr ⟨_, _, rfl⟩
    · obtain ⟨fault, hfault⟩ := FileView.exists_withholds files path htext
      rw [load_of_withholds files path hformat hfault] at h
      cases h
      exact Or.inr ⟨_, _, rfl⟩
  · rw [load_of_no_format files path (not_exists.mp hknown)] at h
    cases h
    exact Or.inl rfl

/-! ### What is loaded -/

/-- What a failure of loading is, given the failure of reading that it comes from. -/
structure ReportsReading (format : FileFormat) (path : Text) (g f : Failure) : Prop where
  /-- The cause is the same. -/
  cause : f.cause = g.cause
  /-- There is one context more, and it is the outermost. -/
  contexts : f.contexts = .loadingForm format path :: g.contexts
  /-- The message names the format and the path in front of the message of reading. -/
  message : f.message = "Invalid ".toList ++ format.name ++ " rule file: ".toList ++
    Text.quote path ++ ": ".toList ++ g.message

theorem reportsReading_iff {format : FileFormat} {path t : Text} {f g : Failure}
    (h : read format t = .error g) :
    ReportsReading format path g f ↔ g.within (.loadingForm format path) = f := by
  constructor
  · rintro ⟨hcause, hcontexts, -⟩
    obtain ⟨contexts, cause⟩ := f
    simp only at hcause hcontexts
    rw [Failure.within, hcause, hcontexts]
  · rintro rfl
    refine ⟨rfl, rfl, ?_⟩
    have hcontexts : g.contexts ≠ [] := by
      rw [contexts_of_read_eq_error h]
      exact List.cons_ne_nil _ _
    exact Failure.message_within hcontexts _

/-- **Loading a form refines reading it.** A path without a known extension is refused whatever it
leads to. Any other path is refused if it leads to no text in UTF-8, with the context of fetching. If it
leads to a text, then what is loaded is what is read from that text in the format of the path; and a
failure is the failure of reading, with the same cause, behind one context that names the format and the
path. Nothing in the files matters but what the path leads to. -/
theorem load_refines_read :
    ((∀ format : FileFormat, Path.extension? path ≠ some format.name) →
      ∃ f, load files path = .error f ∧ f.cause = .unknownFormat path ∧
        f.message = "Unsupported rule file ".toList ++ Text.quote path ++
          ": expected a .toml or .json extension".toList) ∧
    (∀ format : FileFormat, Path.extension? path = some format.name →
      ((¬ ∃ t, files.HoldsText path t) → ∃ f fault, load files path = .error f ∧
        files.Withholds path fault ∧ f.cause = .access fault ∧
        f.message = "Failed to read rule file: ".toList ++ Text.quote path) ∧
      ∀ t, files.HoldsText path t →
        (∀ form, load files path = .ok form ↔ read format t = .ok form) ∧
        ∀ f, load files path = .error f ↔
          ∃ g, read format t = .error g ∧ g.contexts = [.readingForm format] ∧
            ReportsReading format path g f) ∧
    ∀ files' : FileView, files' path = files path → load files' path = load files path := by
  refine ⟨fun hnone => ?_, fun format hformat => ⟨fun htext => ?_, fun t ht => ⟨fun form => ?_,
    fun f => ?_⟩⟩, fun files' => load_congr⟩
  · exact ⟨_, load_of_no_format files path hnone, rfl, List.append_nil _⟩
  · obtain ⟨fault, hfault⟩ := FileView.exists_withholds files path htext
    exact ⟨_, fault, load_of_withholds files path hformat hfault, hfault, rfl, List.append_nil _⟩
  · rw [load_of_holdsText files path hformat ht, Outcome.mapError_eq_ok_iff]
  · rw [load_of_holdsText files path hformat ht, Outcome.mapError_eq_error_iff]
    refine exists_congr fun g => and_congr_right fun hg => ?_
    rw [reportsReading_iff hg]
    exact (and_iff_right (contexts_of_read_eq_error hg)).symm

/-- A file that holds no object, a directory, and a hidden file whose name has no extension. -/
theorem load_refines_read_of_three_failures :
    let files : FileView := fun path =>
      if path = "x/a.json".toList then .ok (.file "[]".toList.utf8Encode) else .ok .directory
    files.HoldsText "x/a.json".toList "[]".toList ∧
      (∃ f, load files "x/a.json".toList = .error f ∧
        f.cause = .json (.mismatch ⟨.sequence, .map⟩) ∧
        f.contexts = [.loadingForm .json "x/a.json".toList, .readingForm .json]) ∧
      (∃ f, load files "b.toml/.".toList = .error f ∧ f.cause = .access .isDirectory ∧
        f.message = "Failed to read rule file: \"b.toml/.\"".toList) ∧
      ∃ f, load files "x/.toml".toList = .error f ∧ f.cause = .unknownFormat "x/.toml".toList := by
  intro files
  have hdirectory : ¬ ∃ t, files.HoldsText "b.toml/.".toList t := by
    rintro ⟨t, ht⟩
    cases ht
  have hhidden : ∀ format : FileFormat, Path.extension? "x/.toml".toList ≠ some format.name := by
    intro format
    cases format <;> decide
  obtain ⟨-, hformat, -⟩ := load_refines_read files "x/a.json".toList
  obtain ⟨-, htext⟩ := hformat .json (by decide)
  obtain ⟨-, hformat', -⟩ := load_refines_read files "b.toml/.".toList
  obtain ⟨f', fault, hload', hwithholds, hcause', hmessage'⟩ :=
    (hformat' .toml (by decide)).1 hdirectory
  obtain ⟨f'', hload'', hcause'', -⟩ := (load_refines_read files "x/.toml".toList).1 hhidden
  refine ⟨rfl, ?_, ⟨f', hload', ?_, hmessage'.trans (by decide +kernel)⟩, f'', hload'', hcause''⟩
  · have hread : read .json "[]".toList =
        .error ⟨[.readingForm .json], .json (.mismatch ⟨.sequence, .map⟩)⟩ := rfl
    have hreports : ReportsReading .json "x/a.json".toList _ _ := (reportsReading_iff hread).mpr rfl
    have hload := ((htext "[]".toList rfl).2 _).mpr ⟨_, hread, rfl, hreports⟩
    exact ⟨_, hload, hreports.cause, hreports.contexts⟩
  · rw [hcause']
    cases hwithholds with
    | directory => rfl
    | nothing h => cases h
    | unreadable h => cases h
    | notUtf8 h => cases h

end Form

namespace Settings

/-! ### Settings -/

variable {files : FileView} {path : Text}

/-- Where a path leads to nothing there are the default settings. -/
theorem load_of_nothing {fault : AccessFault} (h : files path = .error fault) :
    load files path = .ok {} := by
  rw [load, FileView.leads, h]
  rfl

/-- A path that leads somewhere, but to no text, is refused for the cause of that. -/
theorem load_of_withholds {entry : FileEntry} {fault : AccessFault} (hentry : files path = .ok entry)
    (h : files.Withholds path fault) :
    load files path = .error ⟨[.fetchingSettings path], .access fault⟩ := by
  rw [load, FileView.leads, hentry, (FileView.readText_eq_error_iff files path fault).mpr h]
  rfl

/-- The settings are read from the text that a path leads to. -/
theorem load_of_holdsText {t : Text} (h : files.HoldsText path t) :
    load files path = (read t).mapError fun fault => ⟨[.readingSettings path], .toml fault⟩ := by
  have hentry : files path = .ok (.file t.utf8Encode) := h
  rw [load, FileView.leads, hentry, (FileView.readText_eq_ok_iff files path t).mpr h]
  rfl

/-- A failure of loading settings has one context: the text was fetched or it was read. -/
theorem contexts_of_load_eq_error {f : Failure} (h : load files path = .error f) :
    f.contexts = [.fetchingSettings path] ∨ f.contexts = [.readingSettings path] := by
  cases hentry : files path with
  | error fault =>
    rw [load_of_nothing hentry] at h
    cases h
  | ok entry =>
    by_cases htext : ∃ t, files.HoldsText path t
    · obtain ⟨t, ht⟩ := htext
      rw [load_of_holdsText ht] at h
      obtain ⟨fault, -, rfl⟩ := Outcome.mapError_eq_error_iff.mp h
      exact Or.inr rfl
    · obtain ⟨fault, hfault⟩ := FileView.exists_withholds files path htext
      rw [load_of_withholds hentry hfault] at h
      cases h
      exact Or.inl rfl

end Settings

end FormRules
