import FormRules.Form.Load
import FormRules.Outcome
import FormRules.Proofs.OrderedMap.Records
import FormRules.Proofs.Toml.Lines

/-!
# Reading TOML documents of declarations

A document of declarations, such as a flat one, is read line by line into one statement for each member
(`readStatements_document`), and the statements write the members one after the other into the
outermost table, which refuses a name that it has already (`run_statements`). So a document with
distinct names is its members in order, and any other is malformed (`readDocument_declarations`). What
the values are is looked at only then.
-/

namespace FormRules.Toml

open OrderedMap Outcome

/-! ### Lines one after the other -/

/-- The statements of a document are those of its members in order. -/
theorem readStatements_document {t : Text} {ms : List FlatMember} (h : Declarations t ms) :
    readStatements t = some (ms.map statement) := by
  induction h with
  | @last w m hline =>
    have hread := readStatements_line hline .stop
    rw [List.append_nil, readStatements_of_skipBlanks (t := []) rfl] at hread
    rw [hread]
    cases m <;> rfl
  | @more w e u m ms hline he _ ih =>
    rw [readStatements_line hline (.more he), ih, List.map_append]
    cases m <;> rfl

/-- A line does not begin with a byte order mark. -/
theorem dropMark_line_append {w t u : Text} {m : Option FlatMember} (h : Declaration w m)
    (ht : LineTail t u) : dropMark (w ++ t) = w ++ t := by
  have hhead : ∀ c ∈ (w ++ t).head?, c ≠ '\ufeff' := by
    intro c hc
    cases h with
    | @idle b k hb hk =>
      rw [List.append_assoc] at hc
      have hends := endsValue_append hb hk ht c hc
      rintro rfl
      exact absurd hends (by decide)
    | @pair b₁ key _ _ _ _ _ _ hb₁ hkey _ _ _ _ _ =>
      cases b₁ with
      | nil =>
        obtain ⟨d, v, rfl, -, hd⟩ := exists_cons_of_keyText hkey
        rw [← Option.some.inj hc]
        rintro rfl
        exact absurd hd (by decide)
      | cons d b =>
        rw [← Option.some.inj hc]
        rcases hb₁ d List.mem_cons_self with rfl | rfl <;> decide
  unfold dropMark
  split
  · rename_i heq
    rw [heq] at hhead
    exact absurd rfl (hhead _ rfl)
  · rfl

theorem dropMark_document {t : Text} {ms : List FlatMember} (h : Declarations t ms) :
    dropMark t = t := by
  cases h with
  | last hline =>
    have hmark := dropMark_line_append hline .stop
    rwa [List.append_nil] at hmark
  | more hline he _ => exact dropMark_line_append hline (.more he)

/-! ### Members one after the other -/

/-- The entries of the outermost table that some members make. -/
def memberEntries (ms : List FlatMember) : Entries := ms.map fun m => (m.1, m.2.node)

theorem map_fst_memberEntries (ms : List FlatMember) :
    (memberEntries ms).map Prod.fst = ms.map Prod.fst := by
  rw [memberEntries, List.map_map]
  rfl

/-- A pair with a key of one part goes to the end of the table, if its name is new. -/
theorem addPair_name (name : Text) (v : Node) (es : Entries) :
    addPair false ⟨[], name, v⟩ es =
      if name ∈ es.map Prod.fst then none else some (es ++ [(name, v)]) := by
  rw [addPair, descend]
  simp only [List.isEmpty_nil, Bool.false_eq_true, if_false]
  by_cases h : name ∈ es.map Prod.fst
  · rw [if_pos h]
    cases hlookup : es.lookup name with
    | none => exact absurd h (lookup_eq_none_iff_notMem.mp hlookup)
    | some _ => rfl
  · rw [if_neg h, lookup_eq_none_iff_notMem.mpr h, insertEntry_of_notMem h]
    rfl

/-- A member goes to the end of the outermost table, if its name is new. -/
theorem step_statement (es : Entries) (m : FlatMember) :
    Draft.step ⟨[], es, none⟩ (statement m) =
      if m.1 ∈ es.map Prod.fst then none
      else some ⟨[], es ++ memberEntries [m], none⟩ := by
  rw [statement, Draft.step, addPair_name]
  split <;> rfl

/-- Members go to the end of the outermost table, if their names are new and distinct. -/
theorem foldlM_statements (es : Entries) (ms : List FlatMember) (hes : (es.map Prod.fst).Nodup) :
    (ms.map statement).foldlM Draft.step ⟨[], es, none⟩ =
      if ((es ++ memberEntries ms).map Prod.fst).Nodup then some ⟨[], es ++ memberEntries ms, none⟩
      else none := by
  induction ms generalizing es with
  | nil =>
    have hnil : es ++ memberEntries [] = es := List.append_nil es
    rw [hnil, if_pos hes]
    rfl
  | cons m ms ih =>
    have hsplit : es ++ memberEntries (m :: ms) = es ++ memberEntries [m] ++ memberEntries ms := by
      rw [List.append_assoc]
      rfl
    rw [List.map_cons, List.foldlM_cons, step_statement]
    by_cases h : m.1 ∈ es.map Prod.fst
    · -- the name stays repeated, whatever follows
      have hdup : ¬ ((es ++ memberEntries (m :: ms)).map Prod.fst).Nodup := by
        rw [List.map_append, List.nodup_append]
        exact fun hnodup => hnodup.2.2 m.1 h m.1 List.mem_cons_self rfl
      rw [if_pos h, if_neg hdup]
      rfl
    · have hinsert : insertEntry m.1 m.2.node es = es ++ memberEntries [m] := insertEntry_of_notMem h _
      have hes' : ((es ++ memberEntries [m]).map Prod.fst).Nodup := by
        rw [← hinsert]
        exact nodup_insertEntry _ _ hes
      rw [if_neg h]
      show (ms.map statement).foldlM Draft.step ⟨[], es ++ memberEntries [m], none⟩ = _
      rw [ih _ hes', hsplit]

/-- The statements of members with distinct names build the table that holds them in order. -/
theorem run_statements (ms : List FlatMember) :
    Draft.run (ms.map statement) =
      if (ms.map Prod.fst).Nodup then some (memberEntries ms) else none := by
  rw [Draft.run, Draft.empty, foldlM_statements [] ms List.nodup_nil, List.nil_append,
    map_fst_memberEntries]
  split <;> rfl

/-- **A document of declarations** with distinct names holds its members in order; with a repeated name
it is malformed. -/
theorem readDocument_declarations {t : Text} {ms : List FlatMember} (h : Declarations t ms) :
    readDocument t = if (ms.map Prod.fst).Nodup then some (memberEntries ms) else none := by
  rw [readDocument, dropMark_document h, readStatements_document h, Option.bind_some,
    run_statements]

theorem readDocument_flat {t : Text} {ms : List FlatMember} (h : FlatDocument t ms) :
    readDocument t = if (ms.map Prod.fst).Nodup then some (memberEntries ms) else none :=
  readDocument_declarations (.of_flat h)

/-! ### Values of the entries -/

theorem rulesOf_node {v : Scalar} (hv : ¬ v.IsString) :
    rulesOf v.node = .error (.mismatch ⟨v.found, .string⟩) := by
  cases v with
  | string t => exact absurd ⟨t, rfl⟩ hv
  | boolean b => rfl
  | integer n => rfl

/-- The first of some entries is looked at before the others. -/
theorem membersOf_cons (e : Text × Node) (es : Entries) :
    membersOf (e :: es) =
      rulesOf e.2 >>= fun rules => (membersOf es).map fun fields => (e.1, rules) :: fields := by
  rw [membersOf, membersOf, List.mapM_cons]
  cases rulesOf e.2 with
  | error fault => rfl
  | ok rules => cases es.mapM fun e => (rulesOf e.2).map fun rules => (e.1, rules) <;> rfl

/-- Entries that are strings are fields with their rule texts. -/
theorem membersOf_strings (fields : List (Text × Text)) :
    membersOf (memberEntries (stringMembers fields)) = .ok fields := by
  induction fields with
  | nil => rfl
  | cons f fields ih =>
    show membersOf ((f.1, .string f.2) :: memberEntries (stringMembers fields)) = _
    rw [membersOf_cons, rulesOf, ok_bind, ih]
    rfl

/-- The first entry that is no string is the fault. -/
theorem membersOf_fault (fields : List (Text × Text)) {m : FlatMember} (hm : ¬ m.2.IsString)
    (after : List FlatMember) :
    membersOf (memberEntries (stringMembers fields ++ m :: after)) =
      .error (.mismatch ⟨m.2.found, .string⟩) := by
  induction fields with
  | nil =>
    show membersOf ((m.1, m.2.node) :: memberEntries after) = _
    rw [membersOf_cons, rulesOf_node hm, error_bind]
  | cons f fields ih =>
    show membersOf ((f.1, .string f.2) :: memberEntries (stringMembers fields ++ m :: after)) = _
    rw [membersOf_cons, rulesOf, ok_bind, ih]
    rfl

end FormRules.Toml
