import FormRules.CommandLine.Report

/-!
# Requests for rule files

Which rule files the program can be asked to print, and with which settings files: those whose paths
are not empty, and no others (`exists_arguments_iff`). That an empty path never gets through is an
invariant of gathering (`Gathered.Fits`): every option and every operand keeps it, so it holds at the
end of every run over the words (`sound_takeWords`). That any other path gets through is shown by one
way of writing the arguments, in which a path may begin with a dash or hold an equals sign
(`request_of_formArguments`).
-/

namespace FormRules.CommandLine

/-! ### No empty paths -/

/-- No path that is looked at for a request is empty. -/
def Request.Sound (r : Request) : Prop := ∀ path ∈ r.paths, path ≠ []

theorem Request.sound_misuse : Request.misuse.Sound := List.forall_mem_nil _

theorem Request.sound_help : Request.help.Sound := List.forall_mem_nil _

theorem Request.sound_version : Request.version.Sound := List.forall_mem_nil _

/-- No path that was gathered is empty. -/
structure Gathered.Fits (verb : Verb) (g : Gathered) : Prop where
  /-- The path of the settings file is not empty. -/
  settings : g.settings ≠ some []
  /-- The operand, where it is the path of a rule file, is not empty. -/
  operand : verb = .form → g.operand ≠ some []

namespace Gathered.Fits

variable {verb : Verb} {g g' : Gathered}

/-- Nothing is gathered at first. -/
theorem empty (verb : Verb) : Fits verb {} := ⟨by simp, by simp⟩

theorem addVerbose (h : g.Fits verb) (hg : g.addVerbose = some g') : g'.Fits verb := by
  unfold Gathered.addVerbose at hg
  split at hg
  · cases hg
  · cases hg
    exact ⟨h.settings, h.operand⟩

theorem addCompact (h : g.Fits verb) (hg : g.addCompact verb = some g') : g'.Fits verb := by
  unfold Gathered.addCompact at hg
  split at hg
  · cases hg
  · cases hg
    exact ⟨h.settings, h.operand⟩

theorem addSettings {path : Text} (h : g.Fits verb) (hg : g.addSettings path = some g') :
    g'.Fits verb := by
  unfold Gathered.addSettings at hg
  split at hg
  · cases hg
  · rename_i hpath
    cases hg
    refine ⟨?_, h.operand⟩
    rintro ⟨⟩
    simp at hpath

theorem addOperand {word : Text} (h : g.Fits verb) (hg : g.addOperand verb word = some g') :
    g'.Fits verb := by
  unfold Gathered.addOperand at hg
  split at hg
  · cases hg
  · rename_i hword
    cases hg
    refine ⟨h.settings, ?_⟩
    rintro rfl ⟨⟩
    simp [Verb.admits] at hword

/-- What is asked for with what was gathered looks at no empty path. -/
theorem sound_request (h : g.Fits verb) : (g.request verb).Sound := by
  have hsettings : g.settings.getD Settings.usualPath ≠ [] := by
    cases hg : g.settings with
    | none => decide
    | some path => exact fun hpath => h.settings (by rw [hg, ← hpath]; rfl)
  cases verb with
  | form =>
    unfold Gathered.request
    cases hg : g.operand with
    | none => exact Request.sound_misuse
    | some file =>
      have hfile : file ≠ [] := fun hnil => h.operand rfl (by rw [hg, hnil])
      simp [Request.Sound, Request.paths, hsettings, hfile]
  | field =>
    unfold Gathered.request
    cases g.operand with
    | none => exact Request.sound_misuse
    | some rules => simpa [Request.Sound, Request.paths] using hsettings
  | list => exact List.forall_mem_nil _

end Gathered.Fits

/-- Whether no path is empty in what a group of short options leaves. -/
def GroupResult.Fits (verb : Verb) : GroupResult → Prop
  | taken g | valueNext g => g.Fits verb
  | help | misuse => True

theorem fits_takeGroup {verb : Verb} {g : Gathered} (h : g.Fits verb) (letters : Text) :
    (takeGroup verb g letters).Fits verb := by
  have hpath : ∀ (g : Gathered) (path : Text), g.Fits verb →
      GroupResult.Fits verb ((g.addSettings path).elim .misuse .taken) := by
    intro g path hg
    cases hadd : g.addSettings path with
    | none => trivial
    | some g' => exact hg.addSettings hadd
  fun_induction takeGroup verb g letters with
  | case1 => exact h
  | case2 g t g' hadd ih => exact ih (h.addVerbose hadd)
  | case6 => exact h
  | case7 g path => exact hpath _ _ h
  | case8 => exact hpath _ _ h
  | _ => trivial

theorem sound_takeOperands {verb : Verb} {g : Gathered} (h : g.Fits verb) (words : List Text) :
    (takeOperands verb g words).Sound := by
  unfold takeOperands
  induction words generalizing g with
  | nil => exact h.sound_request
  | cons word words ih =>
    rw [List.foldlM_cons]
    cases hadd : g.addOperand verb word with
    | none => exact Request.sound_misuse
    | some g' => exact ih (h.addOperand hadd)

/-- Going on with what was gathered, if something was. -/
theorem sound_next {verb : Verb} {next : Gathered → Request} {g? : Option Gathered} :
    (∀ g, g.Fits verb → (next g).Sound) → (∀ g, g? = some g → g.Fits verb) →
      Request.Sound (match g? with
        | some g => next g
        | none => .misuse) := by
  intro hnext hg
  cases g? with
  | none => exact Request.sound_misuse
  | some g => exact hnext g (hg g rfl)

/-- Going on behind the value of an option, if there is one that fits. -/
theorem sound_value {verb : Verb} {g : Gathered} {next : Gathered → List Text → Request}
    {words : List Text} :
    g.Fits verb →
      (∀ g' rest, g'.Fits verb → rest.length < words.length → (next g' rest).Sound) →
      Request.Sound (match words with
        | value :: words =>
          if isValue value then
            match g.addSettings value with
            | some g => next g words
            | none => .misuse
          else .misuse
        | [] => .misuse) := by
  intro h hnext
  cases words with
  | nil => exact Request.sound_misuse
  | cons value words =>
    simp only
    split
    · exact sound_next (fun g' hg' => hnext g' words hg' (Nat.lt_succ_self _))
        fun _ => h.addSettings
    · exact Request.sound_misuse

/-- Whatever the words are, what they ask for looks at no empty path. -/
theorem sound_takeWords {verb : Verb} {g : Gathered} (h : g.Fits verb) (words : List Text) :
    (takeWords verb g words).Sound := by
  -- the value of an option is a word of its own, so two words may go at once
  induction hn : words.length using Nat.strongRecOn generalizing g words with
  | ind n ih =>
    subst hn
    cases words with
    | nil =>
      rw [takeWords]
      exact h.sound_request
    | cons word words =>
      have hnext : ∀ g, g.Fits verb → (takeWords verb g words).Sound :=
        fun g hg => ih words.length (Nat.lt_succ_self _) hg words rfl
      have hrest : ∀ g rest, g.Fits verb → rest.length < words.length →
          (takeWords verb g rest).Sound :=
        fun g rest hg hlt => ih rest.length (Nat.lt_succ_of_lt hlt) hg rest rfl
      rw [takeWords]
      cases Word.of word with
      | separator => exact sound_takeOperands h words
      | plain => exact sound_next hnext fun _ => h.addOperand
      | short letters =>
        have hgroup := fits_takeGroup h letters
        simp only
        cases hg : takeGroup verb g letters with
        | taken g' =>
          rw [hg] at hgroup
          exact hnext g' hgroup
        | valueNext g' =>
          rw [hg] at hgroup
          exact sound_value hgroup hrest
        | help => exact Request.sound_help
        | misuse => exact Request.sound_misuse
      | long name value =>
        simp only
        split
        · cases value with
          | none => exact sound_value h hrest
          | some path => exact sound_next hnext fun _ => h.addSettings
        · split
          · exact Request.sound_misuse
          · split
            · exact sound_next hnext fun _ => h.addVerbose
            · split
              · exact sound_next hnext fun _ => h.addCompact
              · split
                · exact Request.sound_help
                · exact Request.sound_misuse

theorem sound_takeLeadingGroup {verbose : Bool} {letters : Text} {r : Request}
    (h : takeLeadingGroup verbose letters = .error r) : r.Sound := by
  fun_induction takeLeadingGroup verbose letters with
  | case1 => cases h
  | case3 verbose t hverbose ih => exact ih h
  | _ =>
    cases h
    exact List.forall_mem_nil _

/-- No path that the program looks at is empty. -/
theorem sound_of (arguments : List Text) : (Request.of arguments).Sound := by
  unfold Request.of
  generalize false = verbose
  induction arguments generalizing verbose with
  | nil => exact Request.sound_misuse
  | cons word words ih =>
    rw [takeLeading]
    cases Word.of word with
    | separator => exact Request.sound_misuse
    | plain =>
      simp only
      cases Verb.ofName? word with
      | some verb => exact sound_takeWords (.empty verb) words
      | none =>
        simp only
        split
        · unfold helpRequest
          split
          · exact Request.sound_help
          · split
            · exact Request.sound_help
            · exact Request.sound_misuse
          · exact Request.sound_misuse
        · exact Request.sound_misuse
    | short letters =>
      simp only
      cases hgroup : takeLeadingGroup verbose letters with
      | ok verbose => exact ih verbose
      | error r => exact sound_takeLeadingGroup hgroup
    | long name value =>
      simp only
      split
      · exact Request.sound_misuse
      · split
        · split
          · exact Request.sound_misuse
          · exact ih true
        · split
          · exact Request.sound_version
          · split
            · exact Request.sound_help
            · exact Request.sound_misuse

/-! ### Every other path -/

/-- One way of asking for a rule file: the settings file and the option for a single line in front of a
double dash, and the rule file behind it. -/
def formArguments (file : Text) (settings : Option Text) (compact : Bool) : List Text :=
  "translate".toList :: ((settings.map ("--config=".toList ++ ·)).toList ++
    ((if compact then ["--compact".toList] else []) ++ ["--".toList, file]))

/-- The option for a settings file is taken. -/
theorem takeWords_config {g : Gathered} {path : Text} (hg : g.settings = none) (hpath : path ≠ [])
    (words : List Text) :
    takeWords .form g (("--config=".toList ++ path) :: words) =
      takeWords .form { g with settings := some path } words := by
  have hword : Word.of ("--config=".toList ++ path) = .long "config".toList (some path) := rfl
  have hadd : g.addSettings path = some { g with settings := some path } := by
    simp [Gathered.addSettings, hg, hpath]
  rw [takeWords, hword]
  simp only [hadd]
  rfl

/-- The option for a single line is taken. -/
theorem takeWords_compact {g : Gathered} (hg : g.compact = false) (words : List Text) :
    takeWords .form g ("--compact".toList :: words) = takeWords .form { g with compact := true } words := by
  have hword : Word.of "--compact".toList = .long "compact".toList none := rfl
  have hadd : g.addCompact .form = some { g with compact := true } := by
    simp [Gathered.addCompact, Verb.takesCompact, hg]
  rw [takeWords, hword]
  simp only [hadd]
  rfl

/-- The word behind a double dash is taken as the rule file. -/
theorem takeWords_separator {g : Gathered} {file : Text} (hg : g.operand = none) (hfile : file ≠ []) :
    takeWords .form g ["--".toList, file] = .run (.printForm file g.settings g.compact) := by
  have hword : Word.of "--".toList = .separator := rfl
  have hadd : g.addOperand .form file = some { g with operand := some file } := by
    simp [Gathered.addOperand, Verb.admits, hg, hfile]
  rw [takeWords, hword]
  simp only [takeOperands, List.foldlM_cons, hadd]
  rfl

/-- Written so, the arguments ask for the rule file, whatever its path and that of the settings file
are, if only they are not empty. -/
theorem request_of_formArguments {file : Text} {settings : Option Text} (hfile : file ≠ [])
    (hsettings : settings ≠ some []) (compact : Bool) :
    Request.of (formArguments file settings compact) = .run (.printForm file settings compact) := by
  have hverb : ∀ words, Request.of ("translate".toList :: words) = takeWords .form {} words :=
    fun _ => rfl
  have hcompact : ∀ g : Gathered, g.compact = false → g.operand = none →
      takeWords .form g ((if compact then ["--compact".toList] else []) ++ ["--".toList, file]) =
        .run (.printForm file g.settings compact) := by
    intro g hg hoperand
    cases compact with
    | false => exact (takeWords_separator hoperand hfile).trans (by rw [hg])
    | true => exact (takeWords_compact hg _).trans (takeWords_separator hoperand hfile)
  rw [formArguments, hverb]
  cases settings with
  | none => exact hcompact {} rfl rfl
  | some path =>
    have hpath : path ≠ [] := fun hnil => hsettings (congrArg some hnil)
    exact (takeWords_config rfl hpath _).trans (hcompact _ rfl rfl)

/-- **The rule files that can be asked for** are those whose paths, and those of the settings files if
there is one, are not empty. -/
theorem exists_arguments_iff (file : Text) (settings : Option Text) (compact : Bool) :
    (∃ arguments, Request.of arguments = .run (.printForm file settings compact)) ↔
      file ≠ [] ∧ settings ≠ some [] := by
  constructor
  · rintro ⟨arguments, h⟩
    have hsound := sound_of arguments
    rw [h] at hsound
    refine ⟨hsound file (by simp [Request.paths]), ?_⟩
    rintro rfl
    exact hsound [] (by simp [Request.paths]) rfl
  · rintro ⟨hfile, hsettings⟩
    exact ⟨_, request_of_formArguments hfile hsettings compact⟩

end FormRules.CommandLine
