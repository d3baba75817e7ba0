import FormRules.Proofs.File.Loading
import FormRules.Proofs.Text.Pieces

/-!
# Formats and the end of a path

The format of a file hangs on the last component of its path alone, which is found from the end: slashes
and `/.` are dropped there as often as they come (`Path.dropIdle`), and what stands behind the last slash
of the rest is the last component (`Path.lastName`). A path grows by one component at a time, so what is
said of all paths is shown for a first component and for one more behind a slash
(`Path.induction_on_components`): one that is idle is dropped, and any other is the last.

What is left may still be no file name: nothing, a dot or two dots. The extension of a component asks
for something in front of its last dot (`Path.extensionOf_eq_some_iff`), which these do not have.
-/

namespace FormRules

namespace Path

/-- A path read from its end, without the slashes and the `/.` that it begins with there. -/
def dropIdle : Text → Text
  | '/' :: t => dropIdle t
  | '.' :: '/' :: t => dropIdle t
  | t => t

/-- The last component of a path without the slashes and the `/.` at its end. -/
def lastName (path : Text) : Text := (Text.cut '/' (dropIdle path.reverse)).1.reverse

/-- Slashes and `/.`, in any number and order. -/
inductive IdleEnd : Text → Prop where
  /-- Nothing. -/
  | nil : IdleEnd []
  /-- A slash in front. -/
  | slash {t : Text} : IdleEnd t → IdleEnd ('/' :: t)
  /-- A slash and a dot in front. -/
  | dot {t : Text} : IdleEnd t → IdleEnd ('/' :: '.' :: t)

/-! ### Components -/

/-- What holds of single components, and of a path with one more component if it holds of the path,
holds of all paths. -/
theorem induction_on_components {motive : Text → Prop} (path : Text)
    (single : ∀ c, '/' ∉ c → motive c)
    (below : ∀ dirs c, '/' ∉ c → motive dirs → motive (dirs ++ '/' :: c)) : motive path := by
  -- read from its end, a path begins with its last component
  have hreverse : motive path.reverse.reverse := by
    induction path.reverse using Text.induction_on_pieces '/' with
    | last c hfree => exact single c.reverse (by simpa using hfree)
    | more c rest hfree ih =>
      have hrest : (c ++ '/' :: rest).reverse = rest.reverse ++ '/' :: c.reverse := by simp
      rw [hrest]
      exact below _ _ (by simpa using hfree) ih
  rwa [List.reverse_reverse] at hreverse

theorem isIdle_iff (c : Text) : isIdle c = true ↔ c = [] ∨ c = ['.'] := by
  rw [isIdle, Bool.or_eq_true, decide_eq_true_eq, decide_eq_true_eq]

/-- The last component of a path behind whose last slash nothing idle stands. -/
theorem lastComponent?_append {c : Text} (hc : '/' ∉ c) (dirs : Text) :
    lastComponent? (dirs ++ '/' :: c) = if isIdle c then lastComponent? dirs else some c := by
  rw [lastComponent?, List.splitOn_append_cons_self, List.splitOn_eq_singleton hc, List.reverse_append,
    List.reverse_singleton, List.singleton_append, List.find?_cons]
  cases isIdle c <;> rfl

theorem lastComponent?_single {c : Text} (hc : '/' ∉ c) :
    lastComponent? c = if isIdle c then none else some c := by
  rw [lastComponent?, List.splitOn_eq_singleton hc, List.reverse_singleton, List.find?_cons]
  cases isIdle c <;> rfl

/-- Without a slash there is nothing to drop. -/
theorem dropIdle_of_notMem {t : Text} (h : '/' ∉ t) : dropIdle t = t := by
  unfold dropIdle
  split
  · simp at h
  · simp at h
  · rfl

/-- A component that is not idle stops the dropping. -/
theorem dropIdle_append {u : Text} (hfree : '/' ∉ u) (hidle : ¬ (u = [] ∨ u = ['.'])) (rest : Text) :
    dropIdle (u ++ '/' :: rest) = u ++ '/' :: rest := by
  rw [not_or] at hidle
  obtain ⟨x, v, rfl⟩ := List.exists_cons_of_ne_nil hidle.1
  rw [List.mem_cons, not_or] at hfree
  unfold dropIdle
  split
  · rename_i heq
    exact absurd (List.cons.inj heq).1.symm hfree.1
  · rename_i heq
    -- a dot before a slash would be an idle component
    obtain ⟨rfl, hv⟩ := List.cons.inj heq
    cases v with
    | nil => exact absurd rfl hidle.2
    | cons y w => exact absurd (by simp [(List.cons.inj hv).1]) hfree.2
  · rfl

theorem lastName_single {c : Text} (hc : '/' ∉ c) : lastName c = c := by
  have hfree : '/' ∉ c.reverse := by simpa using hc
  rw [lastName, dropIdle_of_notMem hfree, Text.cut_of_notMem hfree, List.reverse_reverse]

theorem lastName_append {c : Text} (hc : '/' ∉ c) (dirs : Text) :
    lastName (dirs ++ '/' :: c) = if isIdle c then lastName dirs else c := by
  have hreverse : (dirs ++ '/' :: c).reverse = c.reverse ++ '/' :: dirs.reverse := by simp
  rw [lastName, hreverse]
  by_cases hidle : isIdle c = true
  · rw [if_pos hidle]
    rcases (isIdle_iff c).mp hidle with rfl | rfl
    · rfl
    · rfl
  · have hfree : '/' ∉ c.reverse := by simpa using hc
    rw [if_neg hidle, dropIdle_append hfree _ dirs.reverse, Text.cut_append_cons hfree,
      List.reverse_reverse]
    rw [isIdle_iff] at hidle
    simpa using hidle

/-- Whatever idle stands at the end of a path does not change its last component. -/
theorem lastName_append_idleEnd {tail : Text} (h : IdleEnd tail) (path : Text) :
    lastName (path ++ tail) = lastName path := by
  induction h generalizing path with
  | nil => rw [List.append_nil]
  | @slash t _ ih =>
    have hslash : lastName (path ++ ['/']) = lastName path :=
      lastName_append (c := []) List.not_mem_nil path
    rw [List.append_cons, ih, hslash]
  | @dot t _ ih =>
    have hdot : lastName (path ++ ['/', '.']) = lastName path :=
      lastName_append (c := ['.']) (by decide) path
    rw [show path ++ '/' :: '.' :: t = path ++ ['/', '.'] ++ t by simp, ih, hdot]

/-! ### Extensions -/

/-- The extension of a path is that of its last component. -/
theorem extension?_eq_extensionOf_lastName (path : Text) :
    extension? path = extensionOf (lastName path) := by
  induction path using induction_on_components with
  | single c hc =>
    rw [extension?, lastComponent?_single hc, lastName_single hc]
    by_cases hidle : isIdle c = true
    · rw [if_pos hidle]
      rcases (isIdle_iff c).mp hidle with rfl | rfl
      · rfl
      · rfl
    · rw [if_neg hidle]
      rfl
  | below dirs c hc ih =>
    rw [extension?, lastComponent?_append hc, lastName_append hc]
    by_cases hidle : isIdle c = true
    · rw [if_pos hidle, if_pos hidle]
      exact ih
    · rw [if_neg hidle, if_neg hidle]
      rfl

/-- A name has an extension if it is something, a dot and the extension. -/
theorem extensionOf_eq_some_iff {name e : Text} (hfree : '.' ∉ e) (hne : e ≠ []) :
    extensionOf name = some e ↔ ∃ s, s ≠ [] ∧ name = s ++ '.' :: e := by
  constructor
  · intro h
    unfold extensionOf at h
    split at h
    · cases h
    · split at h
      · rename_i after x before hcut
        have hname := Text.cut_eq_some (congrArg Prod.snd hcut)
        rw [hcut] at hname
        cases h
        refine ⟨(x :: before).reverse, by simp, ?_⟩
        rw [← List.reverse_reverse name, ← hname]
        simp
      · cases h
  · rintro ⟨s, hs, rfl⟩
    have hdots : s ++ '.' :: e ≠ ['.', '.'] := by
      intro heq
      have hlength := congrArg List.length heq
      simp only [List.length_append, List.length_cons, List.length_nil] at hlength
      have hbefore : 0 < s.length := List.length_pos_iff.mpr hs
      have hafter : 0 < e.length := List.length_pos_iff.mpr hne
      omega
    have hreverse : (s ++ '.' :: e).reverse = e.reverse ++ '.' :: s.reverse := by simp
    obtain ⟨x, before, hbefore⟩ : ∃ x before, s.reverse = x :: before :=
      List.exists_cons_of_ne_nil (by simpa using hs)
    have hcut : Text.cut '.' (s ++ '.' :: e).reverse = (e.reverse, some (x :: before)) := by
      rw [hreverse, Text.cut_append_cons (by simpa using hfree), hbefore]
    rw [extensionOf, if_neg hdots, hcut]
    simp

end Path

namespace FileFormat

/-- The format of a path is named by the end of its last component, behind something and a dot. -/
theorem ofPath?_eq_some_iff_lastName (path : Text) (format : FileFormat) :
    ofPath? path = some format ↔ ∃ s, s ≠ [] ∧ Path.lastName path = s ++ '.' :: format.name := by
  have hname : '.' ∉ format.name ∧ format.name ≠ [] := by cases format <;> decide
  rw [ofPath?_eq_some_iff, Path.extension?_eq_extensionOf_lastName,
    Path.extensionOf_eq_some_iff hname.1 hname.2]

/-- Paths with the same last component have the same format. -/
theorem ofPath?_congr {path path' : Text} (h : Path.lastName path' = Path.lastName path) :
    ofPath? path' = ofPath? path := by
  refine Option.ext fun format => ?_
  rw [ofPath?_eq_some_iff_lastName, ofPath?_eq_some_iff_lastName, h]

/-- **The last component of a path decides on the format.** It ends in `.toml` or in `.json`, with
something in front of that, if the path is one of that format; in every other case the path has no
format, and loading it is refused for that whatever the files hold. So the format does not depend on the
directories in front of the last component, and whatever mix of slashes and `/.` is put behind a path
does not change it. -/
theorem ofPath?_follows_last_name (path : Text) :
    let c := Path.lastName path
    (ofPath? path = some .toml ↔ ∃ s, s ≠ [] ∧ c = s ++ ".toml".toList) ∧
    (ofPath? path = some .json ↔ ∃ s, s ≠ [] ∧ c = s ++ ".json".toList) ∧
    ((∀ s, s ≠ [] → c ≠ s ++ ".toml".toList ∧ c ≠ s ++ ".json".toList) →
      ofPath? path = none ∧
        ∀ files : FileView, Form.load files path = .error ⟨[], .unknownFormat path⟩) ∧
    (∀ dirs name tail, '/' ∉ name → name ≠ [] → name ≠ ['.'] → Path.IdleEnd tail →
      ofPath? (dirs ++ '/' :: (name ++ tail)) = ofPath? name) ∧
    ∀ tail, Path.IdleEnd tail → ofPath? (path ++ tail) = ofPath? path := by
  intro c
  have hformat := ofPath?_eq_some_iff_lastName path
  refine ⟨hformat .toml, hformat .json, fun hother => ?_, fun dirs name tail hfree hne hdot htail => ?_,
    fun tail htail => ofPath?_congr (Path.lastName_append_idleEnd htail path)⟩
  · have hnone : ∀ format, ofPath? path ≠ some format := by
      intro format h
      obtain ⟨s, hs, hc⟩ := (hformat format).mp h
      cases format with
      | toml => exact (hother s hs).1 hc
      | json => exact (hother s hs).2 hc
    refine ⟨Option.eq_none_iff_forall_ne_some.mpr hnone, fun files => ?_⟩
    exact Form.load_of_no_format files path fun format h =>
      hnone format ((ofPath?_eq_some_iff path format).mpr h)
  · have hidle : ¬ Path.isIdle name = true := by
      rw [Path.isIdle_iff]
      exact not_or.mpr ⟨hne, hdot⟩
    refine ofPath?_congr ?_
    rw [← List.cons_append, ← List.append_assoc, Path.lastName_append_idleEnd htail,
      Path.lastName_append hfree, if_neg hidle, Path.lastName_single hfree]

/-- A dot is enough in front of the extension, but a hidden file has none; and a path keeps its format
behind other directories and in front of slashes. -/
theorem ofPath?_of_hidden_files :
    ofPath? "x/..toml//./".toList = some .toml ∧ ofPath? "x/.toml".toList = none ∧
      ofPath? "y.toml/../a.json/.".toList = ofPath? "a.json".toList ∧
      ofPath? "x/.toml/./".toList = ofPath? "x/.toml".toList := by
  obtain ⟨htoml, -⟩ := ofPath?_follows_last_name "x/..toml//./".toList
  obtain ⟨-, -, hother, hdirs, htail⟩ := ofPath?_follows_last_name "x/.toml".toList
  have hname : Path.lastName "x/.toml".toList = ".toml".toList := rfl
  refine ⟨htoml.mpr ⟨".".toList, by decide, rfl⟩, (hother fun s hs => ?_).1, ?_, ?_⟩
  · -- nothing stands in front of the five characters
    have hlength : ∀ e : Text, e.length = 5 → Path.lastName "x/.toml".toList ≠ s ++ e := by
      intro e he h
      rw [hname] at h
      have hcount := congrArg List.length h
      rw [List.length_append, he] at hcount
      exact hs (List.eq_nil_of_length_eq_zero (Nat.add_eq_right.mp hcount.symm))
    exact ⟨hlength _ rfl, hlength _ rfl⟩
  · exact hdirs "y.toml/..".toList "a.json".toList "/.".toList (by decide) (by decide) (by decide)
      (.dot .nil)
  · exact htail "/./".toList (.dot (.slash .nil))

end FileFormat

end FormRules
