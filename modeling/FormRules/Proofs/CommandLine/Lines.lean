import FormRules.CommandLine.Report
import FormRules.Outcome
import FormRules.Proofs.Attributes.Meaning
import FormRules.Proofs.Attributes.Provenance
import FormRules.Proofs.OrderedMap.Algebra
import FormRules.Proofs.Rule.WellFormed

/-!
# Reading the printed attributes of a field

The attributes of a field are printed one to a line, each as its key, an equals sign and its value in
quotes, and nothing is escaped. They can be read back all the same (`readField_fieldText`). A line ends
where it was meant to, since values hold no line feed that the rule text does not hold
(`Rule.Means.lineFeed_notMem`). The key of a line ends at the first equals sign with a quote behind it,
the mark, since a key holds a mark only if the name of a rule does (`readLine_entryLine`); the value ends
at the last quote, whatever is in it. And a line without a mark, as is printed where there are no
attributes, is not the line of an attribute.
-/

namespace FormRules

/-! ### Characters of values -/

namespace Rule

section Characters

variable {c : Char} {blob : Option Text} (h : ∀ b ∈ blob, c ∉ b)
include h

theorem notMem_upToComma : c ∉ upToComma blob := by
  cases blob with
  | none => exact List.not_mem_nil
  | some blob =>
    rw [upToComma, ← Text.before_zero]
    exact fun hc => h blob rfl ((Text.before_sublist ',' 0 blob).subset hc)

theorem notMem_inBrackets (hc : c ∉ "[,]".toList) : c ∉ inBrackets blob := by
  cases blob with
  | none => exact hc
  | some blob =>
    have hblob := h blob rfl
    simp_all [inBrackets]

theorem notMem_commasAs {d : Char} (hd : c ≠ d) : c ∉ commasAs d blob := by
  cases blob with
  | none => simpa [commasAs] using hd
  | some blob =>
    rw [commasAs, List.mem_map]
    rintro ⟨b, hb, hc⟩
    split at hc
    · exact hd hc.symm
    · exact h blob rfl (hc ▸ hb)

end Characters

theorem lineFeed_notMem_fixedRows : ∀ row ∈ fixedRows, '\n' ∉ row.2.2 := by
  decide

/-- No value holds a line feed that the blob does not hold. -/
theorem Means.lineFeed_notMem {blob : Option Text} {name : Text} {written : List (Text × Text)}
    (h : Means blob name written) (hblob : ∀ b ∈ blob, '\n' ∉ b) : ∀ w ∈ written, '\n' ∉ w.2 := by
  have hfirst := notMem_upToComma hblob
  have hbrackets := notMem_inBrackets hblob (by decide)
  have hbars := notMem_commasAs (d := '|') hblob (by decide)
  have hspaces := notMem_commasAs (d := ' ') hblob (by decide)
  cases h with
  | fixed hrow => simpa using lineFeed_notMem_fixedRows _ hrow
  | first | inBrackets | oneOf | passed => simpa
  | different | digits | digitsBetween | noneOf => simp_all

end Rule

namespace CommandLine

/-! ### Marks -/

/-- What stands between the key and the value on a printed line. -/
def mark : Text := ['=', '"']

/-- The text before the first mark and the text behind it. -/
def cutMark : Text → Option (Text × Text)
  | [] => none
  | c :: t =>
    if mark <+: c :: t then some ([], t.tail) else (cutMark t).map fun p => (c :: p.1, p.2)

/-- Behind a text without a mark the first mark is the one that is put there. Both characters of a mark
being different, no mark begins in that text and ends behind it. -/
theorem cutMark_append {k : Text} (h : ¬ mark <:+: k) (rest : Text) :
    cutMark (k ++ mark ++ rest) = some (k, rest) := by
  induction k with
  | nil => rfl
  | cons c k ih =>
    rw [List.infix_cons_iff, not_or] at h
    obtain ⟨hpre, hinfix⟩ := h
    have hnot : ¬ mark <+: c :: (k ++ mark ++ rest) := by
      cases k with
      | nil => simp [mark]
      | cons d k => simpa [mark] using hpre
    rw [List.cons_append, List.cons_append, cutMark, if_neg hnot, ih hinfix]
    rfl

/-- A text that begins without an equals sign holds a mark behind that beginning, if it holds one. -/
theorem mark_infix_of_append {t u : Text} (ht : '=' ∉ t) (h : mark <:+: t ++ u) : mark <:+: u := by
  induction t with
  | nil => exact h
  | cons c t ih =>
    rw [List.mem_cons, not_or] at ht
    rw [List.cons_append, List.infix_cons_iff] at h
    rcases h with hpre | hinfix
    · exact absurd (List.cons_prefix_cons.mp hpre).1 ht.1
    · exact ih ht.2 hinfix

/-! ### Lines -/

theorem splitOn_flatMap_line {lines : List Text} (h : ∀ l ∈ lines, '\n' ∉ l) :
    (lines.flatMap line).splitOn '\n' = lines ++ [[]] := by
  induction lines with
  | nil => rfl
  | cons l lines ih =>
    obtain ⟨hl, hlines⟩ := List.forall_mem_cons.mp h
    rw [List.flatMap_cons, line, List.append_assoc, List.singleton_append,
      List.splitOn_append_cons_self, List.splitOn_eq_singleton hl, ih hlines]
    rfl

/-- The line of an attribute. -/
def entryLine (e : Text × Text) : Text := e.1 ++ '=' :: '"' :: e.2 ++ ['"']

/-- The printed lines of the attributes of a field. -/
def fieldLines (m : Attributes) : List Text :=
  if m.isEmpty then ["No attributes produced".toList] else m.entries.map entryLine

/-- Without colour the attributes of a field are printed as these lines and nothing else. -/
theorem fieldText_eq (m : Attributes) : fieldText false m = (fieldLines m).flatMap line := by
  rw [fieldText, fieldLines]
  split
  · rfl
  · rw [List.flatMap_map]
    rfl

theorem length_fieldLines (m : Attributes) :
    (fieldLines m).length = if m.isEmpty then 1 else m.size := by
  rw [fieldLines]
  split
  · rfl
  · rw [List.length_map, OrderedMap.size]

theorem lineFeed_notMem_fieldLines {m : Attributes}
    (h : ∀ e ∈ m.entries, '\n' ∉ e.1 ∧ '\n' ∉ e.2) : ∀ l ∈ fieldLines m, '\n' ∉ l := by
  rw [fieldLines]
  split
  · decide
  · intro l hl
    obtain ⟨e, he, rfl⟩ := List.mem_map.mp hl
    simpa [entryLine] using h e he

/-! ### The reader -/

/-- The key and the value on the line of an attribute: what stands before the first mark, and what
stands behind it up to the last character. -/
def readLine (l : Text) : Option (Text × Text) := (cutMark l).map fun p => (p.1, p.2.dropLast)

/-- The keys and values on the lines of a text, lines without a mark left out. -/
def readField (printed : Text) : List (Text × Text) := (printed.splitOn '\n').filterMap readLine

/-- The line of an attribute is read back, whatever the value is, if the key holds no mark. -/
theorem readLine_entryLine {e : Text × Text} (h : ¬ mark <:+: e.1) : readLine (entryLine e) = some e := by
  have hcut : cutMark (entryLine e) = some (e.1, e.2 ++ ['"']) := by
    rw [← cutMark_append h]
    simp [entryLine, mark]
  rw [readLine, hcut, Option.map_some, List.dropLast_concat]

/-- Attributes without line feeds and without marks in their keys are read back from what is printed of
them. -/
theorem readField_fieldText {m : Attributes} (hlines : ∀ e ∈ m.entries, '\n' ∉ e.1 ∧ '\n' ∉ e.2)
    (hkeys : ∀ e ∈ m.entries, ¬ mark <:+: e.1) : readField (fieldText false m) = m.entries := by
  rw [readField, fieldText_eq, splitOn_flatMap_line (lineFeed_notMem_fieldLines hlines),
    List.filterMap_append, fieldLines]
  split
  · rename_i hempty
    rw [List.isEmpty_iff.mp hempty]
    rfl
  · have hread : m.entries.filterMap (readLine ∘ entryLine) = m.entries.filterMap some :=
      List.filterMap_congr fun e he => readLine_entryLine (hkeys e he)
    rw [List.filterMap_map, hread, List.filterMap_some]
    exact List.append_nil _

end CommandLine

namespace ReadingPolicy

variable {policy : ReadingPolicy} {rules : Text}

/-! ### Printed attributes -/

/-- Each attribute of a field is written by a token. -/
theorem exists_token_of_mem_entries {e : Text × Text} (h : e ∈ (policy.attributes rules).entries) :
    ∃ t ∈ tokens rules, e ∈ Rule.writesOf policy.colons t := by
  have hget := (OrderedMap.mem_entries_iff _).mp h
  obtain ⟨before, after, hlog, -⟩ := ((OrderedMap.records_ofList _).value e.1 e.2).mp hget
  have hmem : e ∈ policy.writes rules := by simp [hlog]
  rw [writes_eq_flatMap_tokens] at hmem
  obtain ⟨t, ht, he⟩ := List.mem_flatMap.mp hmem
  exact ⟨t, (List.mem_filter.mp ht).1, he⟩

/-- A key is the stem with a suffix behind it that a token brings. -/
theorem exists_suffix_of_mem_entries {e : Text × Text} (h : e ∈ (policy.attributes rules).entries) :
    ∃ t ∈ tokens rules, ∃ k ∈ Rule.suffixes (Text.cut ':' t).1, Attribute.stem ++ k = e.1 := by
  obtain ⟨t, ht, -, hkey⟩ :=
    (mem_keys_attributes_iff_exists_suffix policy rules e.1).mp (List.mem_map_of_mem h)
  exact ⟨t, ht, hkey⟩

/-- No key holds a line feed, if the rule text holds none. -/
theorem lineFeed_notMem_key (hrules : '\n' ∉ rules) :
    ∀ e ∈ (policy.attributes rules).entries, '\n' ∉ e.1 := by
  intro e he
  obtain ⟨t, ht, k, hk, hkey⟩ := exists_suffix_of_mem_entries he
  have htable : ∀ k ∈ RecognizedRule.tableSuffixes, '\n' ∉ k := by decide
  have hstem : '\n' ∉ Attribute.stem := by decide
  have hsuffix : '\n' ∉ k := by
    rcases Rule.mem_tableSuffixes_or_eq_name hk with hmem | ⟨-, rfl⟩
    · exact htable k hmem
    · exact Rule.notMem_name fun hc => hrules (Text.subset_of_mem_splitOn ht hc)
  rw [← hkey, List.mem_append, not_or]
  exact ⟨hstem, hsuffix⟩

/-- No key holds a mark, if no name in the rule text holds one. -/
theorem mark_notInfix_key (hnames : ∀ t ∈ tokens rules, ¬ CommandLine.mark <:+: (Text.cut ':' t).1) :
    ∀ e ∈ (policy.attributes rules).entries, ¬ CommandLine.mark <:+: e.1 := by
  intro e he hmark
  obtain ⟨t, ht, k, hk, hkey⟩ := exists_suffix_of_mem_entries he
  have htable : ∀ k ∈ RecognizedRule.tableSuffixes, '=' ∉ k := by decide
  have hstem : '=' ∉ Attribute.stem := by decide
  rw [← hkey] at hmark
  have hsuffix := CommandLine.mark_infix_of_append hstem hmark
  rcases Rule.mem_tableSuffixes_or_eq_name hk with hmem | ⟨-, rfl⟩
  · exact htable k hmem (hsuffix.subset List.mem_cons_self)
  · exact hnames t ht hsuffix

/-- No value holds a line feed, if the rule text holds none. -/
theorem lineFeed_notMem_value (hrules : '\n' ∉ rules) :
    ∀ e ∈ (policy.attributes rules).entries, '\n' ∉ e.2 := by
  intro e he
  obtain ⟨t, ht, hwrites⟩ := exists_token_of_mem_entries he
  obtain ⟨written, hmeans⟩ :=
    Rule.exists_means ((Text.cut ':' t).2.map policy.colons.blob) (Text.cut ':' t).1
  have hblob : ∀ b ∈ (Text.cut ':' t).2.map policy.colons.blob, '\n' ∉ b := by
    intro b hb hc
    obtain ⟨rest, hrest, rfl⟩ := Option.map_eq_some_iff.mp hb
    have htoken : '\n' ∈ t := by
      rw [← Text.cut_eq_some hrest]
      exact List.mem_append_right _ (List.mem_cons_of_mem _ (policy.colons.blob_subset rest hc))
    exact hrules (Text.subset_of_mem_splitOn ht htoken)
  rw [hmeans.writesOf_eq] at hwrites
  obtain ⟨w, hw, rfl⟩ := List.mem_map.mp hwrites
  exact hmeans.lineFeed_notMem hblob w hw

/-- The attributes of a rule text are read back from what is printed of them, if the text holds no line
feed and its names hold no mark. -/
theorem readField_fieldText_attributes (policy : ReadingPolicy) (hrules : '\n' ∉ rules)
    (hnames : ∀ t ∈ tokens rules, ¬ CommandLine.mark <:+: (Text.cut ':' t).1) :
    CommandLine.readField (CommandLine.fieldText false (policy.attributes rules)) =
      (policy.attributes rules).entries :=
  CommandLine.readField_fieldText
    (fun e he => ⟨lineFeed_notMem_key hrules e he, lineFeed_notMem_value hrules e he⟩)
    (mark_notInfix_key hnames)

end ReadingPolicy

namespace CommandLine

/-! ### Runs -/

/-- A run with settings prints the attributes that the rule text has under their policy. -/
theorem report_field_of_loaded {files : FileView} (colour : Bool) {settings : Option Text} {s : Settings}
    (hs : Settings.load files (settings.getD Settings.usualPath) = .ok s) (rules : Text) :
    Command.report files colour (.printField rules settings) =
      .success (fieldText colour (s.reading.attributes rules)) := by
  rw [Command.report, Command.output, hs, Outcome.ok_bind]
  rfl

/-- **Printed attributes can be told apart.** Without colour, and for rule texts without line feeds, a
run prints as many lines as there are attributes, or one if there are none. Two runs, under any settings,
that print the same for rule texts without a mark in their names have the same attributes in the same
order. Nothing is asked of the values, which may hold quotes, equals signs and marks. -/
theorem printed_field_determines_attributes :
    (∀ (files : FileView) (settings : Option Text) (s : Settings) (rules : Text),
      Settings.load files (settings.getD "rusty-parsley.toml".toList) = .ok s → '\n' ∉ rules →
      let m := s.reading.attributes rules
      ∃ lines : List Text,
        (Command.report files false (.printField rules settings)).output = lines.flatMap line ∧
          (∀ l ∈ lines, '\n' ∉ l) ∧ lines.length = if m.isEmpty then 1 else m.size) ∧
    ∀ (files files' : FileView) (settings settings' : Option Text) (s s' : Settings)
        (rules rules' : Text),
      Settings.load files (settings.getD "rusty-parsley.toml".toList) = .ok s →
      Settings.load files' (settings'.getD "rusty-parsley.toml".toList) = .ok s' →
      '\n' ∉ rules → '\n' ∉ rules' →
      (∀ t ∈ tokens rules, ¬ "=\"".toList <:+: (Text.cut ':' t).1) →
      (∀ t ∈ tokens rules', ¬ "=\"".toList <:+: (Text.cut ':' t).1) →
      (Command.report files false (.printField rules settings)).output =
        (Command.report files' false (.printField rules' settings')).output →
      s.reading.attributes rules = s'.reading.attributes rules' := by
  constructor
  · intro files settings s rules hs hrules m
    refine ⟨fieldLines m, ?_, lineFeed_notMem_fieldLines fun e he => ?_, length_fieldLines m⟩
    · rw [report_field_of_loaded false hs, ← fieldText_eq]
      rfl
    · exact ⟨ReadingPolicy.lineFeed_notMem_key hrules e he,
        ReadingPolicy.lineFeed_notMem_value hrules e he⟩
  · intro files files' settings settings' s s' rules rules' hs hs' hrules hrules' hnames hnames' hsame
    rw [report_field_of_loaded false hs, report_field_of_loaded false hs'] at hsame
    have hprinted : fieldText false (s.reading.attributes rules) =
        fieldText false (s'.reading.attributes rules') := hsame
    refine OrderedMap.eq_of_entries_eq ?_
    calc (s.reading.attributes rules).entries
      _ = readField (fieldText false (s.reading.attributes rules)) :=
        (ReadingPolicy.readField_fieldText_attributes s.reading hrules hnames).symm
      _ = readField (fieldText false (s'.reading.attributes rules')) := congrArg readField hprinted
      _ = (s'.reading.attributes rules').entries :=
        ReadingPolicy.readField_fieldText_attributes s'.reading hrules' hnames'

/-- A value that is a mark, and another one that ends in a quote before it is written over. -/
theorem printed_field_determines_attributes_with_marks :
    let files : FileView := fun _ => .error .notFound
    let printed (rules : Text) := (Command.report files false (.printField rules none)).output
    let rules := "x:a\"|min:1|x:=\"".toList
    let rules' := "x:=\"|min:1,2".toList
    printed rules = "data-parsley-x=\"=\"\"\ndata-parsley-minlength=\"1\"\n".toList ∧
      (default : ReadingPolicy).attributes rules = (default : ReadingPolicy).attributes rules' ∧
      ∃ lines : List Text, printed rules = lines.flatMap line ∧ (∀ l ∈ lines, '\n' ∉ l) ∧
        lines.length = 2 := by
  intro files printed rules rules'
  have hs : Settings.load files "rusty-parsley.toml".toList = .ok {} := rfl
  have hprinted : printed rules =
      "data-parsley-x=\"=\"\"\ndata-parsley-minlength=\"1\"\n".toList := by decide
  have hprinted' : printed rules' =
      "data-parsley-x=\"=\"\"\ndata-parsley-minlength=\"1\"\n".toList := by decide
  have hfree : ∀ t ∈ tokens rules ++ tokens rules', '=' ∉ (Text.cut ':' t).1 := by decide
  have hnames : ∀ t ∈ tokens rules ++ tokens rules', ¬ "=\"".toList <:+: (Text.cut ':' t).1 :=
    fun t ht hmark => hfree t ht (hmark.subset List.mem_cons_self)
  obtain ⟨hlines, hsame⟩ := printed_field_determines_attributes
  refine ⟨hprinted, ?_, hlines files none {} rules hs (by decide)⟩
  exact hsame files files none none {} {} rules rules' hs hs (by decide) (by decide)
    (fun t ht => hnames t (List.mem_append_left _ ht))
    (fun t ht => hnames t (List.mem_append_right _ ht)) (hprinted.trans hprinted'.symm)

end CommandLine

end FormRules
