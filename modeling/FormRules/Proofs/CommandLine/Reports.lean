import FormRules.Proofs.CommandLine.Requests
import FormRules.Proofs.File.Loading
import FormRules.Proofs.Json.Texts

/-!
# Reports of printed rule files

Printing a rule file takes the settings first and the rule file then, and only if both are there
anything is printed. So a run ends in one of three ways (`report_of_loaded`,
`report_of_settings_failure`, `report_of_form_failure`). In the first it prints one JSON text
(`exists_valueText_report`); in the others it prints nothing and tells of the failure that came first
(`exists_failsFirst_report`).
-/

namespace FormRules.CommandLine

/-! ### The three ways to end -/

section Ways

variable {files : FileView} (colour : Bool) {file : Text} {settings : Option Text} (compact : Bool)

theorem report_of_loaded {s : Settings} {form : Form}
    (hs : Settings.load files (settings.getD Settings.usualPath) = .ok s)
    (hform : Form.load files file = .ok form) :
    Command.report files colour (.printForm file settings compact) =
      .success (formText (compact || !s.pretty) (form.attributes s.reading)) := by
  rw [Command.report, Command.output, hs, Outcome.ok_bind, hform, Outcome.ok_bind]
  rfl

theorem report_of_settings_failure {f : Failure}
    (hs : Settings.load files (settings.getD Settings.usualPath) = .error f) :
    Command.report files colour (.printForm file settings compact) = .failure f := by
  rw [Command.report, Command.output, hs, Outcome.error_bind]

theorem report_of_form_failure {s : Settings} {f : Failure}
    (hs : Settings.load files (settings.getD Settings.usualPath) = .ok s)
    (hform : Form.load files file = .error f) :
    Command.report files colour (.printForm file settings compact) = .failure f := by
  rw [Command.report, Command.output, hs, Outcome.ok_bind, hform, Outcome.error_bind]

end Ways

/-! ### Printed texts -/

/-- What is printed of a form is one JSON text of its attributes and a line end. -/
theorem exists_valueText_formText (compact : Bool) (m : FormAttributes) :
    ∃ text, formText compact m = text ++ ['\n'] ∧ Json.ValueText text (FormAttributes.toJson m) ∧
      text = if compact then (FormAttributes.toJson m).compact
        else (FormAttributes.toJson m).pretty 0 := by
  refine ⟨_, rfl, ?_, rfl⟩
  cases compact with
  | false => exact Json.valueText_pretty _ 0
  | true => exact Json.valueText_compact _

/-! ### Reported failures -/

/-- The text by which a failure is told: the message of its outermost context. A path without a known
extension has no context and is told of by a sentence of its own. -/
inductive Tells (f : Failure) : Text → Prop where
  /-- There is a context. -/
  | context {context : Context} {rest : List Context} : f.contexts = context :: rest →
      Tells f context.message
  /-- There is none. -/
  | unknownFormat {path : Text} : f = ⟨[], .unknownFormat path⟩ →
      Tells f ("Unsupported rule file ".toList ++ Text.quote path ++
        ": expected a .toml or .json extension".toList)

/-- The outermost message of a failure that has contexts. -/
theorem headline_of_contexts {f : Failure} {context : Context} {rest : List Context}
    (h : f.contexts = context :: rest) : f.headline = context.message := by
  rw [Failure.headline, Failure.messages, h]
  rfl

theorem tells_of_settings_failure {files : FileView} {path : Text} {f : Failure}
    (h : Settings.load files path = .error f) : Tells f f.headline := by
  rcases Settings.contexts_of_load_eq_error h with hcontexts | hcontexts
  · exact headline_of_contexts hcontexts ▸ .context hcontexts
  · exact headline_of_contexts hcontexts ▸ .context hcontexts

theorem tells_of_form_failure {files : FileView} {path : Text} {f : Failure}
    (h : Form.load files path = .error f) : Tells f f.headline := by
  rcases Form.contexts_of_load_eq_error h with rfl | ⟨context, rest, hcontexts⟩
  · exact .unknownFormat rfl
  · exact headline_of_contexts hcontexts ▸ .context hcontexts

/-- The failure that a run tells of: that of the settings, and only if there is none that of the rule
file. -/
inductive FailsFirst (files : FileView) (settingsPath file : Text) : Failure → Prop where
  /-- The settings are not loaded. -/
  | settings {f : Failure} : Settings.load files settingsPath = .error f →
      FailsFirst files settingsPath file f
  /-- The settings are loaded, and the rule file is not. -/
  | form {s : Settings} {f : Failure} : Settings.load files settingsPath = .ok s →
      Form.load files file = .error f → FailsFirst files settingsPath file f

section Outcomes

variable {files : FileView} (colour : Bool) {file : Text} {settings : Option Text} (compact : Bool)

/-- A run that has loaded both files prints one JSON text, in the form that was asked for. -/
theorem exists_valueText_report {s : Settings} {form : Form}
    (hs : Settings.load files (settings.getD Settings.usualPath) = .ok s)
    (hform : Form.load files file = .ok form) :
    let v := FormAttributes.toJson (form.attributes s.reading)
    ∃ text, Command.report files colour (.printForm file settings compact) =
        ⟨0, text ++ ['\n'], none, false⟩ ∧ Json.ValueText text v ∧
      (compact = true ∨ s.pretty = false → text = v.compact) ∧
      (¬ (compact = true ∨ s.pretty = false) → text = v.pretty 0) := by
  intro v
  obtain ⟨text, hprinted, htext, heq⟩ :=
    exists_valueText_formText (compact || !s.pretty) (form.attributes s.reading)
  have hcompact : (compact || !s.pretty) = true ↔ compact = true ∨ s.pretty = false := by simp
  refine ⟨text, ?_, htext, fun hasked => ?_, fun hasked => ?_⟩
  · rw [report_of_loaded colour compact hs hform, hprinted]
    rfl
  · rw [heq, if_pos (hcompact.mpr hasked)]
  · rw [heq, if_neg (hasked ∘ hcompact.mp)]

/-- A run that has not loaded both files prints nothing and tells of what failed first. -/
theorem exists_failsFirst_report
    (hnot : ¬ ((∃ s, Settings.load files (settings.getD Settings.usualPath) = .ok s) ∧
      ∃ form, Form.load files file = .ok form)) :
    ∃ f t, FailsFirst files (settings.getD Settings.usualPath) file f ∧ Tells f t ∧
      Command.report files colour (.printForm file settings compact) =
        ⟨1, [], some ("Error: ".toList ++ t), false⟩ := by
  cases hs : Settings.load files (settings.getD Settings.usualPath) with
  | error f =>
    exact ⟨f, _, .settings hs, tells_of_settings_failure hs,
      report_of_settings_failure colour compact hs⟩
  | ok s =>
    cases hform : Form.load files file with
    | error f =>
      exact ⟨f, _, .form hs hform, tells_of_form_failure hform,
        report_of_form_failure colour compact hs hform⟩
    | ok form => exact absurd ⟨⟨s, hs⟩, form, hform⟩ hnot

end Outcomes

/-- **Printing a rule file is all or nothing.** Any paths that are not empty can be asked for. If both
the settings and the rule file are loaded, the run ends well, and it prints one JSON text and a line
end: the attributes of the form under the settings' policy, in the compact form if that was asked for
or the settings do not want the pretty one. In every other case it prints nothing, ends with code one
and tells of the failure of the settings, or, only if there is none, of that of the rule file. -/
theorem print_form_all_or_nothing (file : Text) (settings : Option Text) (compact : Bool) :
    ((∃ arguments, Request.of arguments = .run (.printForm file settings compact)) ↔
      file ≠ [] ∧ settings ≠ some []) ∧
    ∀ arguments, Request.of arguments = .run (.printForm file settings compact) →
      ∀ (files : FileView) (colour : Bool),
        let settingsPath := settings.getD "rusty-parsley.toml".toList
        let report := run files colour arguments
        (report.code = 0 ↔
          (∃ s, Settings.load files settingsPath = .ok s) ∧ ∃ form, Form.load files file = .ok form) ∧
        (∀ s form, Settings.load files settingsPath = .ok s → Form.load files file = .ok form →
          let v := FormAttributes.toJson (form.attributes s.reading)
          ∃ text, report = ⟨0, text ++ ['\n'], none, false⟩ ∧ Json.ValueText text v ∧
            (compact = true ∨ s.pretty = false → text = v.compact) ∧
            (¬ (compact = true ∨ s.pretty = false) → text = v.pretty 0)) ∧
        (¬ ((∃ s, Settings.load files settingsPath = .ok s) ∧
            ∃ form, Form.load files file = .ok form) →
          ∃ f t, FailsFirst files settingsPath file f ∧ Tells f t ∧
            report = ⟨1, [], some ("Error: ".toList ++ t), false⟩) := by
  refine ⟨exists_arguments_iff file settings compact, fun arguments h files colour => ?_⟩
  intro settingsPath report
  have hreport : report = Command.report files colour (.printForm file settings compact) := by
    show (Request.of arguments).report files colour = _
    rw [h]
    rfl
  refine ⟨⟨fun hcode => ?_, ?_⟩, fun s form hs hform => ?_, fun hnot => ?_⟩
  · refine Classical.byContradiction fun hnot => ?_
    obtain ⟨f, t, -, -, hfailure⟩ := exists_failsFirst_report colour compact hnot
    rw [hreport, hfailure] at hcode
    cases hcode
  · rintro ⟨⟨s, hs⟩, form, hform⟩
    obtain ⟨text, hsuccess, -⟩ := exists_valueText_report colour compact hs hform
    rw [hreport, hsuccess]
  · rw [hreport]
    exact exists_valueText_report colour compact hs hform
  · rw [hreport]
    exact exists_failsFirst_report colour compact hnot

/-- A rule file that is printed on a single line, under the default settings since there is no settings
file; and one of no known format behind a settings file that is there but may not be read: the failure of
the settings is told of. -/
theorem print_form_of_two_runs :
    let form : Form := .ofList [("a".toList, "min:1".toList)]
    let files : FileView := fun path =>
      if path = "r.json".toList then .ok (.file (Form.toJson form).compact.utf8Encode)
      else if path = "c.toml".toList then .ok (.unreadable .notPermitted)
      else .error .notFound
    let arguments := ["-v".toList, "translate".toList, "r.json".toList, "--compact".toList]
    let arguments' := ["translate".toList, "--config=c.toml".toList, "r.yaml".toList]
    Request.of arguments = .run (.printForm "r.json".toList none true) ∧
      run files false arguments =
        ⟨0, "\x7b\"a\":\x7b\"data-parsley-minlength\":\"1\"\x7d\x7d\n".toList, none, false⟩ ∧
      Request.of arguments' = .run (.printForm "r.yaml".toList (some "c.toml".toList) false) ∧
      run files true arguments' =
        ⟨1, [], some "Error: Failed to read config file: \"c.toml\"".toList, false⟩ := by
  intro form files arguments arguments'
  have hasked : Request.of arguments = .run (.printForm "r.json".toList none true) := by decide
  have hasked' : Request.of arguments' = .run (.printForm "r.yaml".toList (some "c.toml".toList) false) := by
    decide +kernel
  have hnone : files "rusty-parsley.toml".toList = .error .notFound := rfl
  have hs : Settings.load files "rusty-parsley.toml".toList = .ok {} := Settings.load_of_nothing hnone
  have hform : Form.load files "r.json".toList = .ok form := by
    have hread := Json.read_json_of_document_entries (Json.document_compact_ofStrings form.entries)
    have hholds : files.HoldsText "r.json".toList (Form.toJson form).compact := if_pos rfl
    rw [Form.load_of_holdsText files "r.json".toList (by decide : _ = some FileFormat.json.name) hholds]
    exact Outcome.mapError_eq_ok_iff.mpr hread
  obtain ⟨-, hruns⟩ := print_form_all_or_nothing "r.json".toList none true
  obtain ⟨-, hloaded, -⟩ := hruns arguments hasked files false
  obtain ⟨text, hreport, -, hcompact, -⟩ := hloaded {} form hs hform
  obtain ⟨-, hruns'⟩ := print_form_all_or_nothing "r.yaml".toList (some "c.toml".toList) false
  obtain ⟨-, -, hfailed⟩ := hruns' arguments' hasked' files true
  have hs' : Settings.load files "c.toml".toList =
      .error ⟨[.fetchingSettings "c.toml".toList], .access .notPermitted⟩ :=
    Settings.load_of_withholds rfl (.unreadable rfl)
  have hnot : ¬ ∃ s, Settings.load files "c.toml".toList = .ok s := by
    rintro ⟨s, hok⟩
    cases hs'.symm.trans hok
  obtain ⟨f, t, hfirst, htells, hreport'⟩ := hfailed fun hboth => hnot hboth.1
  refine ⟨hasked, ?_, hasked', ?_⟩
  · rw [hreport, hcompact (Or.inl rfl)]
    decide
  · have hf : f = ⟨[.fetchingSettings "c.toml".toList], .access .notPermitted⟩ := by
      cases hfirst with
      | settings h => exact Except.error.inj (h.symm.trans hs')
      | form h _ => exact absurd ⟨_, h⟩ hnot
    subst hf
    cases htells with
    | context h =>
      cases h
      exact hreport'.trans (by decide +kernel)
    | unknownFormat h => cases h

end FormRules.CommandLine
