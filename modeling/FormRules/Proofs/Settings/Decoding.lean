import FormRules.Proofs.Settings.Sections

/-!
# What of a document the settings depend on

Only five names of a document matter to the settings: those of the two sections and those of the three
settings in them. All others may be left out, whatever they stand for (`ofEntries_pruned`). And if the
document gives settings at all, the order of its names does not matter either
(`ofEntries_of_reorders`), because every setting is then what is written under its name, or else its
default (`gives_of_ofEntries`).

The document is a section of sections: the laws of taking named values are used once more, for the two
sections as they have been for the settings in them.
-/

namespace FormRules.Settings

open Toml (Node Entries Fault)
open Outcome

/-! ### The sections of a document -/

theorem setSection_eq_taking :
    setSection =
      taking readingKey (readSection .readingSection readingNames setReading {})
        (fun s p => { s with reading := p })
        (taking outputKey (readSection .outputSection outputNames setOutput true)
          (fun s b => { s with pretty := b }) passing) := rfl

theorem slot_reading :
    Slot setSection readingKey Settings.reading
      (readSection .readingSection readingNames setReading {}) := by
  rw [setSection_eq_taking]
  exact .here (fun _ _ => rfl) (spares_passing.taking fun _ _ => rfl)

theorem slot_output :
    Slot setSection outputKey Settings.pretty
      (readSection .outputSection outputNames setOutput true) := by
  rw [setSection_eq_taking]
  exact .there (by decide) (fun _ _ => rfl) (.here (fun _ _ => rfl) spares_passing)

theorem steady_setSection : Steady setSection := by
  rw [setSection_eq_taking]
  exact steady_passing.taking.taking

theorem orderFree_setSection : OrderFree setSection := by
  intro es es' s s' hperm hnames h
  obtain ⟨⟨p, b⟩, h'⟩ := steady_setSection.exists_takeAll_perm hperm h
  have hp : p = s'.reading := slot_reading.eq_of_perm hperm hnames h h'
  have hb : b = s'.pretty := slot_output.eq_of_perm hperm hnames h h'
  rw [h', hp, hb]

/-! ### Names without meaning -/

/-- The names of the sections, in order. -/
def sectionNames : List Text := [readingKey, outputKey]

/-- The names of the settings in a section of this name. -/
def namesIn (name : Text) : List Text :=
  if name = readingKey then readingNames else if name = outputKey then outputNames else []

/-- The entries of a document without the names that are no section, and its sections without the names
that are no setting of theirs. -/
def pruned (es : Entries) : Entries :=
  (restrict sectionNames es).map fun e => (e.1, prunedSection (namesIn e.1) e.2)

theorem setSection_of_notMem (name : Text) (v : Node) (s : Settings)
    (h : name ∉ sectionNames) : setSection name v s = .ok s := by
  simp only [sectionNames, List.mem_cons, List.not_mem_nil, or_false, not_or] at h
  rw [setSection, if_neg h.1, if_neg h.2]

theorem setSection_prunedSection (name : Text) (v : Node) (s : Settings) :
    setSection name (prunedSection (namesIn name) v) s = setSection name v s := by
  unfold setSection namesIn
  by_cases hreading : name = readingKey
  · rw [if_pos hreading, if_pos hreading, if_pos hreading]
    exact congrArg (Except.map _) (readSection_pruned setReading_of_notMem v)
  · rw [if_neg hreading, if_neg hreading, if_neg hreading]
    by_cases houtput : name = outputKey
    · rw [if_pos houtput, if_pos houtput, if_pos houtput]
      exact congrArg (Except.map _) (readSection_pruned setOutput_of_notMem v)
    · rw [if_neg houtput, if_neg houtput]

/-- The settings that a document gives, or the fault that it has, hang on the names that mean something
alone. -/
theorem ofEntries_pruned (es : Entries) : ofEntries (pruned es) = ofEntries es :=
  calc takeAll setSection (pruned es) {}
    _ = takeAll setSection (restrict sectionNames es) {} :=
      takeAll_map setSection_prunedSection _ _
    _ = takeAll setSection es {} :=
      takeAll_restrict setSection_of_notMem es {}

/-! ### The order of the names -/

theorem setSection_of_reordered {name : Text} {v v' : Node} {s s' : Settings} (hv : v.Distinct)
    (hreordered : Reordered v v') (h : setSection name v s = .ok s') :
    setSection name v' s = .ok s' := by
  unfold setSection at h ⊢
  by_cases hreading : name = readingKey
  · rw [if_pos hreading] at h ⊢
    obtain ⟨p, hp, rfl⟩ := map_eq_ok_iff.mp h
    rw [readSection_of_reordered orderFree_setReading hv hreordered hp]
    rfl
  · rw [if_neg hreading] at h ⊢
    by_cases houtput : name = outputKey
    · rw [if_pos houtput] at h ⊢
      obtain ⟨b, hb, rfl⟩ := map_eq_ok_iff.mp h
      rw [readSection_of_reordered orderFree_setOutput hv hreordered hb]
      rfl
    · rw [if_neg houtput] at h ⊢
      exact h

/-- The entries of a document are the same but for the order of the names, in the outermost table and in
the tables that stand right in it. -/
def Reorders (es es' : Entries) : Prop :=
  ∃ between : Entries, es.Perm between ∧
    List.Forall₂ (fun e e' => e.1 = e'.1 ∧ Reordered e.2 e'.2) between es'

theorem takeAll_of_forall₂_reordered {es es' : Entries} (hes : ∀ e ∈ es, e.2.Distinct)
    (hreordered : List.Forall₂ (fun e e' => e.1 = e'.1 ∧ Reordered e.2 e'.2) es es') {s s' : Settings}
    (h : takeAll setSection es s = .ok s') : takeAll setSection es' s = .ok s' := by
  induction hreordered generalizing s with
  | nil => exact h
  | cons hhead _ ih =>
    obtain ⟨hv, hrest⟩ := List.forall_mem_cons.mp hes
    obtain ⟨s₁, hs₁, htaken⟩ := takeAll_cons_eq_ok_iff.mp h
    rw [hhead.1] at hs₁
    exact takeAll_cons_eq_ok_iff.mpr
      ⟨s₁, setSection_of_reordered hv hhead.2 hs₁, ih hrest htaken⟩

/-- Entries that give settings give the same settings in any other order. -/
theorem ofEntries_of_reorders {es es' : Entries} {s : Settings} (hes : Toml.Distinct es)
    (hreorders : Reorders es es') (h : ofEntries es = .ok s) : ofEntries es' = .ok s := by
  obtain ⟨between, hperm, hreordered⟩ := hreorders
  exact takeAll_of_forall₂_reordered (fun e he => hes.values e (hperm.mem_iff.mpr he)) hreordered
    (orderFree_setSection hperm hes.names h)

/-! ### Settings that are written -/

/-- What stands in a document for a setting, if anything does: in the section of a name, under the name
of the setting. The names are those of the settings of the section, by which an array is read. -/
def settingIn (sectionName : Text) (names : List Text) (name : Text) (es : Entries) : Option Node :=
  ((es.lookup sectionName).bind (sectionOf names)).bind (List.lookup name)

/-- A setting follows what stands for it, or else is its default. -/
def Follows {β : Type} (meant : β → Node → Prop) (default value : β) : Option Node → Prop
  | none => value = default
  | some v => meant value v

/-- The settings are those that a document gives: each follows what the document says, or else is its
default. -/
structure Gives (es : Entries) (s : Settings) : Prop where
  /-- What empty tokens are read as. -/
  emptyTokens : Follows (fun e => Names e.name) EmptyTokens.fallback s.reading.emptyTokens
    (settingIn readingKey readingNames emptyTokensKey es)
  /-- How a second colon is read. -/
  colons : Follows (fun c => Names c.name) ColonReading.truncate s.reading.colons
    (settingIn readingKey readingNames colonsKey es)
  /-- Whether attributes are printed in the pretty form. -/
  pretty : Follows (fun b v => v = .boolean b) true s.pretty
    (settingIn outputKey outputNames prettyKey es)

/-- A setting that is the value written for it follows it, if a value is read only as what it says. -/
theorem Written.follows {β : Type} {read : Node → Except Fault β} {meant : β → Node → Prop}
    {before after : β} {v? : Option Node} (hmeant : ∀ {v b}, read v = .ok b → meant b v)
    (h : Written read before after v?) : Follows meant before after v? := by
  cases v? with
  | none => exact h
  | some v => exact hmeant h

/-- A setting of a section is what is written under its name in the section, wherever the section
stands in the document. -/
theorem written_settingIn {σ β : Type} {sectionName name : Text} {part : Settings → σ} {get : σ → β}
    {wanted : Wanted} {names : List Text} {set : Text → Node → σ → Except Fault σ}
    {read : Node → Except Fault β} (hnames : names.Nodup)
    (hsection : Slot setSection sectionName part (readSection wanted names set (part {})))
    (hslot : Slot set name get read) {es : Entries} (hes : Toml.Distinct es) {s : Settings}
    (h : ofEntries es = .ok s) :
    Written read (get (part {})) (get (part s)) (settingIn sectionName names name es) := by
  have hwritten := hsection.written hes.names h
  unfold settingIn
  cases hv : es.lookup sectionName with
  | none =>
    rw [hv] at hwritten
    exact congrArg get hwritten
  | some v =>
    rw [hv] at hwritten
    obtain ⟨inner, hinner, htaken⟩ := readSection_eq_ok_iff.mp hwritten
    rw [Option.bind_some, hinner, Option.bind_some]
    exact hslot.written (nodup_sectionOf hnames (hes.lookup hv) hinner) htaken

theorem gives_of_ofEntries {es : Entries} {s : Settings} (hes : Toml.Distinct es)
    (h : ofEntries es = .ok s) : Gives es s where
  emptyTokens :=
    (written_settingIn (by decide) slot_reading slot_emptyTokens hes h).follows names_of_readChoice
  colons := (written_settingIn (by decide) slot_reading slot_colons hes h).follows names_of_readChoice
  pretty := (written_settingIn (by decide) slot_output slot_pretty hes h).follows eq_of_readBoolean

/-! ### Documents -/

/-- What settings a document gives, or what fault it has, hangs on the five names alone, so two documents
that differ in other names come to the same. If a document gives settings, each is what is written for it
or else its default, and the document gives the same settings with its names in any other order. -/
theorem ignores_unknown_names_and_order {t : Text} {es : Entries}
    (h : Toml.readDocument t = some es) :
    ofToml t = ofEntries es ∧ ofEntries (pruned es) = ofEntries es ∧
      (∀ t' es', Toml.readDocument t' = some es' → pruned es' = pruned es → ofToml t' = ofToml t) ∧
      ∀ s, ofToml t = .ok s →
        Gives es s ∧ ∀ es', Reorders es es' → ofEntries es' = .ok s := by
  have hdistinct := Toml.distinct_readDocument h
  have hdocument : ∀ {t es}, Toml.readDocument t = some es → ofToml t = ofEntries es := by
    intro t es h
    rw [ofToml, h]
  refine ⟨hdocument h, ofEntries_pruned es, fun t' es' h' hpruned => ?_, fun s hs => ?_⟩
  · rw [hdocument h', hdocument h, ← ofEntries_pruned es', hpruned, ofEntries_pruned es]
  · rw [hdocument h] at hs
    exact ⟨gives_of_ofEntries hdistinct hs,
      fun es' hreorders => ofEntries_of_reorders hdistinct hreorders hs⟩

/-- A document with two names of no meaning and both kinds of choice; the same without these names; and
its entries the other way round, those of the section too. -/
theorem ignores_unknown_names_and_order_of_document :
    let t := "a=1\noutput=\x7bb=2,pretty=false\x7d\ntranslator=[\x7bskip=[]\x7d,'keep']".toList
    let t' := "output=\x7bpretty=false\x7d\ntranslator=[\x7bskip=[]\x7d,'keep']".toList
    let reading : Text × Node := (readingKey,
      .array [.table .braced [("skip".toList, .array [])], .string "keep".toList])
    ofToml t' = ofToml t ∧ ofToml t = .ok ⟨⟨.skip, .keep⟩, false⟩ ∧
      ofEntries [reading,
        (outputKey, .table .braced [(prettyKey, .boolean false), ("b".toList, .integer 2)]),
        ("a".toList, .integer 1)] = .ok ⟨⟨.skip, .keep⟩, false⟩ := by
  intro t t' reading
  have hread : Toml.readDocument t = some
      [("a".toList, .integer 1),
        (outputKey, .table .braced [("b".toList, .integer 2), (prettyKey, .boolean false)]),
        reading] := by
    with_unfolding_all rfl
  have hread' : Toml.readDocument t' = some
      [(outputKey, .table .braced [(prettyKey, .boolean false)]), reading] := by
    with_unfolding_all rfl
  obtain ⟨hsettings, -, hagree, horder⟩ := ignores_unknown_names_and_order hread
  have hgives : ofToml t = .ok ⟨⟨.skip, .keep⟩, false⟩ := hsettings.trans (by decide +kernel)
  refine ⟨hagree t' _ hread' rfl, hgives, (horder _ hgives).2 _ ⟨_, (List.reverse_perm _).symm, ?_⟩⟩
  exact .cons ⟨rfl, .same _⟩ (.cons ⟨rfl, .table (.swap _ _ _)⟩ (.cons ⟨rfl, .same _⟩ .nil))

-- Of two faults the first counts, so the order matters where a document gives no settings.
example : ofToml "output=1\ntranslator=2".toList ≠ ofToml "translator=2\noutput=1".toList := by
  decide +kernel

end FormRules.Settings
