import FormRules.Proofs.Settings.Taking
import FormRules.Proofs.Toml.Distinct

/-!
# Settings in a section

A section is a table, or an array in the order of its settings. Names that are no setting of it do not
matter, neither to the settings nor to the fault (`readSection_pruned`), and a table that gives settings
gives the same ones in any other order (`readSection_of_reordered`).

Both rest on the laws of taking named values one after the other. What is shown here is that single
settings are taken as those laws ask for, what a choice and a truth value are read from, and that the
values of a section have distinct names wherever they come from.
-/

namespace FormRules.Settings

open Toml (Node Entries Fault Marks)
open Outcome

/-! ### Choices -/

/-- A value that holds nothing: an empty array, table or list of tables. -/
inductive Hollow : Node → Prop where
  /-- An empty array. -/
  | array : Hollow (.array [])
  /-- An empty table. -/
  | table {marks : Marks} : Hollow (.table marks [])
  /-- An empty list of tables. -/
  | tables : Hollow (.tables [])

/-- A value that names a choice. -/
inductive Names (given : Text) : Node → Prop where
  /-- The name itself. -/
  | string : Names given (.string given)
  /-- A table in which the name is the only one, with nothing behind it. -/
  | table {marks : Marks} {v : Node} : Hollow v → Names given (.table marks [(given, v)])

theorem hollow_of_checkEmpty {v : Node} (h : checkEmpty v = .ok ()) : Hollow v := by
  cases v with
  | array items =>
    cases items with
    | nil => exact .array
    | cons _ _ => cases h
  | table marks es =>
    cases es with
    | nil => exact .table
    | cons _ _ => cases h
  | tables elements =>
    cases elements with
    | nil => exact .tables
    | cons _ _ => cases h
  | _ => cases h

section Choices

variable {α : Type} {name : α → Text} {first second c : α}

theorem name_of_choose {given : Text} (h : choose name first second given = .ok c) :
    given = name c := by
  unfold choose at h
  split at h
  · cases h
    assumption
  · split at h
    · cases h
      assumption
    · cases h

/-- A choice is read from a value that names it. -/
theorem names_of_readChoice {v : Node} (h : readChoice name first second v = .ok c) :
    Names (name c) v := by
  unfold readChoice at h
  split at h
  · rw [← name_of_choose h]
    exact .string
  · cases h
  · obtain ⟨choice, hchoice, h⟩ := bind_eq_ok_iff.mp h
    obtain ⟨⟨⟩, hempty, h⟩ := bind_eq_ok_iff.mp h
    cases h
    rw [← name_of_choose hchoice]
    exact .table (hollow_of_checkEmpty hempty)
  · cases h
  · cases h

end Choices

/-- A truth value is read from itself. -/
theorem eq_of_readBoolean {v : Node} {b : Bool} (h : readBoolean v = .ok b) : v = .boolean b := by
  unfold readBoolean at h
  split at h
  · cases h
    rfl
  · cases h

/-! ### The settings of a section -/

/-- The names of the settings for reading rule texts, in order. -/
def readingNames : List Text := [emptyTokensKey, colonsKey]

/-- The names of the settings for printing. -/
def outputNames : List Text := [prettyKey]

theorem setReading_eq_taking :
    setReading =
      taking emptyTokensKey (readChoice EmptyTokens.name .fallback .skip)
        (fun p e => { p with emptyTokens := e })
        (taking colonsKey (readChoice ColonReading.name .truncate .keep)
          (fun p c => { p with colons := c }) passing) := rfl

theorem setOutput_eq_taking : setOutput = taking prettyKey readBoolean (fun _ b => b) passing := by
  funext name v b
  unfold setOutput taking
  cases readBoolean v <;> rfl

theorem slot_emptyTokens :
    Slot setReading emptyTokensKey ReadingPolicy.emptyTokens
      (readChoice EmptyTokens.name .fallback .skip) := by
  rw [setReading_eq_taking]
  exact .here (fun _ _ => rfl) (spares_passing.taking fun _ _ => rfl)

theorem slot_colons :
    Slot setReading colonsKey ReadingPolicy.colons (readChoice ColonReading.name .truncate .keep) := by
  rw [setReading_eq_taking]
  exact .there (by decide) (fun _ _ => rfl) (.here (fun _ _ => rfl) spares_passing)

theorem slot_pretty : Slot setOutput prettyKey id readBoolean := by
  rw [setOutput_eq_taking]
  exact .here (fun _ _ => rfl) spares_passing

theorem steady_setReading : Steady setReading := by
  rw [setReading_eq_taking]
  exact steady_passing.taking.taking

theorem steady_setOutput : Steady setOutput := by
  rw [setOutput_eq_taking]
  exact steady_passing.taking

/-- Entries with distinct names may be taken in any order, once they are taken in one. -/
def OrderFree {σ : Type} (set : Text → Node → σ → Except Fault σ) : Prop :=
  ∀ {es es' : Entries} {s s' : σ}, es.Perm es' → (es.map Prod.fst).Nodup →
    takeAll set es s = .ok s' → takeAll set es' s = .ok s'

theorem orderFree_setReading : OrderFree setReading := by
  intro es es' p p' hperm hnames h
  obtain ⟨⟨e, c⟩, h'⟩ := steady_setReading.exists_takeAll_perm hperm h
  have he : e = p'.emptyTokens := slot_emptyTokens.eq_of_perm hperm hnames h h'
  have hc : c = p'.colons := slot_colons.eq_of_perm hperm hnames h h'
  rw [h', he, hc]

theorem orderFree_setOutput : OrderFree setOutput := by
  intro es es' b b' hperm hnames h
  obtain ⟨b₁, h'⟩ := steady_setOutput.exists_takeAll_perm hperm h
  have hb : b₁ = b' := slot_pretty.eq_of_perm hperm hnames h h'
  rw [h', hb]

/-! ### Sections -/

section Sections

variable {σ : Type} {wanted : Wanted} {names : List Text} {set : Text → Node → σ → Except Fault σ}
  {initial s : σ}

theorem readSection_eq_ok_iff {v : Node} :
    readSection wanted names set initial v = .ok s ↔
      ∃ es, sectionOf names v = some es ∧ takeAll set es initial = .ok s := by
  unfold readSection
  cases sectionOf names v with
  | none => simp
  | some es => simp [takeAll]

theorem map_fst_zip_sublist (names : List Text) (items : List Node) :
    ((names.zip items).map Prod.fst).Sublist names := by
  induction names generalizing items with
  | nil => exact .slnil
  | cons name names ih =>
    cases items with
    | nil => exact List.nil_sublist _
    | cons v items => exact (ih items).cons_cons name

/-- The values of a section have distinct names, those of an array because the settings have. -/
theorem nodup_sectionOf (hnames : names.Nodup) {v : Node} (hv : v.Distinct) {es : Entries}
    (h : sectionOf names v = some es) : (es.map Prod.fst).Nodup := by
  cases v with
  | table marks es' =>
    cases h
    exact (Toml.distinct_table_iff.mp hv).names
  | moment =>
    cases h
    exact List.nodup_nil
  | array items =>
    cases h
    exact hnames.sublist (map_fst_zip_sublist names items)
  | tables elements =>
    cases h
    exact hnames.sublist (map_fst_zip_sublist names _)
  | _ => cases h

/-- A value of a document is the same but for the order of the names, if it is a table, and for how the
table is written. -/
inductive Reordered : Node → Node → Prop where
  /-- The same value. -/
  | same (v : Node) : Reordered v v
  /-- A table with the same entries in another order. -/
  | table {marks marks' : Marks} {es es' : Entries} : es.Perm es' →
      Reordered (.table marks es) (.table marks' es')

theorem readSection_of_reordered (hset : OrderFree set) {v v' : Node} (hv : v.Distinct)
    (hreordered : Reordered v v') (h : readSection wanted names set initial v = .ok s) :
    readSection wanted names set initial v' = .ok s := by
  cases hreordered with
  | same => exact h
  | table hperm =>
    obtain ⟨_, hsection, htaken⟩ := readSection_eq_ok_iff.mp h
    cases hsection
    exact readSection_eq_ok_iff.mpr
      ⟨_, rfl, hset hperm (Toml.distinct_table_iff.mp hv).names htaken⟩

/-- A value without the names that are no settings of its section, if it is a table. -/
def prunedSection (names : List Text) : Node → Node
  | .table marks es => .table marks (restrict names es)
  | v => v

/-- Names that are no settings of a section do not matter, neither to the settings nor to the fault. -/
theorem readSection_pruned (hidle : ∀ name v s, name ∉ names → set name v s = .ok s) (v : Node) :
    readSection wanted names set initial (prunedSection names v) =
      readSection wanted names set initial v := by
  cases v with
  | table marks es =>
    exact takeAll_restrict hidle es initial
  | _ => rfl

end Sections

theorem setReading_of_notMem (name : Text) (v : Node) (p : ReadingPolicy)
    (h : name ∉ readingNames) : setReading name v p = .ok p := by
  simp only [readingNames, List.mem_cons, List.not_mem_nil, or_false, not_or] at h
  rw [setReading, if_neg h.1, if_neg h.2]

theorem setOutput_of_notMem (name : Text) (v : Node) (b : Bool) (h : name ∉ outputNames) :
    setOutput name v b = .ok b := by
  simp only [outputNames, List.mem_cons, List.not_mem_nil, or_false] at h
  rw [setOutput, if_neg h]

end FormRules.Settings
