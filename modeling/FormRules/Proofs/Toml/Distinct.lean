import FormRules.Proofs.OrderedMap.Algebra
import FormRules.Toml.Document

/-!
# No name twice

In no table of a document, however deep it stands, does a name occur twice. `Node.Distinct` says this of
a node with all that it holds, and `Distinct` of the entries of a table.

Values have the property as they are read (`distinct_readValue`), since a table between braces takes its
pairs one after the other (`distinct_addPair`). The tables of a document keep it statement by statement
(`distinct_step`): whatever a key leads through is put back into its place with one table changed
(`distinct_descend`). So the outermost table has it at the end (`distinct_readDocument`).
-/

namespace FormRules.Toml

open OrderedMap (insertEntry)

/-! ### Nodes -/

/-- No table in a node has a name twice. -/
inductive Node.Distinct : Node → Prop where
  /-- A string holds no table. -/
  | string (t : Text) : Distinct (.string t)
  /-- Nor does an integer, -/
  | integer (n : Int) : Distinct (.integer n)
  /-- a floating point number, -/
  | real (x : Real) : Distinct (.real x)
  /-- a truth value -/
  | boolean (b : Bool) : Distinct (.boolean b)
  /-- or a moment. -/
  | moment : Distinct .moment
  /-- The items of an array have the property. -/
  | array {items : List Node} : (∀ v ∈ items, v.Distinct) → Distinct (.array items)
  /-- A table has it, and what its names stand for has it. -/
  | table {marks : Marks} {es : Entries} : (es.map Prod.fst).Nodup → (∀ e ∈ es, e.2.Distinct) →
      Distinct (.table marks es)
  /-- Each table of a list has it, and what its names stand for has it. -/
  | tables {elements : List Entries} : (∀ es ∈ elements, (es.map Prod.fst).Nodup) →
      (∀ es ∈ elements, ∀ e ∈ es, e.2.Distinct) → Distinct (.tables elements)

/-- A table of these entries has no name twice, and neither has any table in it. -/
structure Distinct (es : Entries) : Prop where
  /-- The names. -/
  names : (es.map Prod.fst).Nodup
  /-- What they stand for. -/
  values : ∀ e ∈ es, e.2.Distinct

theorem distinct_table_iff {marks : Marks} {es : Entries} :
    (Node.table marks es).Distinct ↔ Distinct es := by
  constructor
  · rintro ⟨⟩
    exact ⟨‹_›, ‹_›⟩
  · intro h
    exact .table h.names h.values

theorem distinct_tables_iff {elements : List Entries} :
    (Node.tables elements).Distinct ↔ ∀ es ∈ elements, Distinct es := by
  constructor
  · rintro ⟨⟩ es hes
    exact ⟨‹∀ es ∈ elements, (es.map Prod.fst).Nodup› es hes,
      ‹∀ es ∈ elements, ∀ e ∈ es, e.2.Distinct› es hes⟩
  · intro h
    exact .tables (fun es hes => (h es hes).names) fun es hes => (h es hes).values

namespace Distinct

variable {es : Entries}

theorem nil : Distinct [] := ⟨List.nodup_nil, List.forall_mem_nil _⟩

/-- Writing under a name keeps the property, whether the name is new or not. -/
theorem insert (h : Distinct es) {v : Node} (hv : v.Distinct) (name : Text) :
    Distinct (insertEntry name v es) := by
  refine ⟨OrderedMap.nodup_insertEntry name v h.names, fun e he => ?_⟩
  rcases OrderedMap.mem_of_mem_insertEntry he with rfl | hmem
  · exact hv
  · exact h.values e hmem

theorem filter (h : Distinct es) (keep : Text × Node → Bool) : Distinct (es.filter keep) where
  names := h.names.sublist (List.filter_sublist.map Prod.fst)
  values e he := h.values e (List.mem_of_mem_filter he)

/-- What a name stands for has the property. -/
theorem lookup (h : Distinct es) {name : Text} {v : Node} (hv : es.lookup name = some v) :
    v.Distinct :=
  h.values (name, v) ((OrderedMap.lookup_eq_some_iff_mem h.names).mp hv)

end Distinct

/-! ### Tables on the way of a key -/

/-- A change at the end of a path keeps the property of the whole, if it keeps that of the table that it
changes; and what it yields beside is what it yields of such a table. -/
theorem distinct_descend {α : Type} {way : Marks} {change : Bool → Entries → Option (α × Entries)}
    {P : α → Prop}
    (hchange : ∀ dotted es r, Distinct es → change dotted es = some r → P r.1 ∧ Distinct r.2)
    {path : List Text} {dotted : Bool} {es : Entries} {r : α × Entries} (hes : Distinct es)
    (h : descend way change path dotted es = some r) : P r.1 ∧ Distinct r.2 := by
  induction path generalizing dotted es r with
  | nil => exact hchange dotted es r hes h
  | cons name path ih =>
    rw [descend] at h
    cases hstop : es.lookup name with
    | none =>
      rw [hstop] at h
      obtain ⟨r', hr', rfl⟩ := Option.map_eq_some_iff.mp h
      obtain ⟨hyield, hinner⟩ := ih .nil hr'
      exact ⟨hyield, hes.insert (distinct_table_iff.mpr hinner) name⟩
    | some stop =>
      have hdistinct := hes.lookup hstop
      rw [hstop] at h
      cases stop with
      | table marks inner =>
        simp only at h
        split at h
        · obtain ⟨r', hr', rfl⟩ := Option.map_eq_some_iff.mp h
          obtain ⟨hyield, hinner⟩ := ih (distinct_table_iff.mp hdistinct) hr'
          exact ⟨hyield, hes.insert (distinct_table_iff.mpr hinner) name⟩
        · cases h
      | tables elements =>
        have helements := distinct_tables_iff.mp hdistinct
        simp only at h
        cases hlast : elements.getLast? with
        | none =>
          rw [hlast] at h
          cases h
        | some last =>
          rw [hlast] at h
          obtain ⟨r', hr', rfl⟩ := Option.map_eq_some_iff.mp h
          obtain ⟨hyield, hinner⟩ := ih (helements last (List.mem_of_getLast? hlast)) hr'
          refine ⟨hyield, hes.insert (distinct_tables_iff.mpr fun inner hmem => ?_) name⟩
          rcases List.mem_append.mp hmem with hmem | hmem
          · exact helements inner ((List.dropLast_sublist elements).subset hmem)
          · rw [List.mem_singleton.mp hmem]
            exact hinner
      | _ => cases h

/-- What every step of a run keeps holds at the end of the run. -/
theorem of_foldlM {σ α : Type} {P : σ → Prop} {step : σ → α → Option σ} {as : List α}
    (hstep : ∀ a ∈ as, ∀ s s', P s → step s a = some s' → P s') {s s' : σ} (hs : P s)
    (h : as.foldlM step s = some s') : P s' := by
  induction as generalizing s with
  | nil =>
    cases h
    exact hs
  | cons a as ih =>
    obtain ⟨hhead, htail⟩ := List.forall_mem_cons.mp hstep
    rw [List.foldlM_cons] at h
    obtain ⟨s₁, hs₁, hrest⟩ := Option.bind_eq_some_iff.mp h
    exact ih htail (hhead s s₁ hs hs₁) hrest

/-- A pair is added under a new name. -/
theorem distinct_addPair {inline : Bool} {pair : Pair} {es es' : Entries} (hes : Distinct es)
    (hv : pair.value.Distinct) (h : addPair inline pair es = some es') : Distinct es' := by
  obtain ⟨r, hr, rfl⟩ := Option.map_eq_some_iff.mp h
  refine (distinct_descend (P := fun _ => True) (fun dotted inner r hinner hchange => ?_) hes hr).2
  split at hchange
  · cases hchange
  · split at hchange
    · cases hchange
      exact ⟨trivial, hinner.insert hv pair.name⟩
    · cases hchange

/-- So is every pair of a table between braces. -/
theorem distinct_bracedTable {pairs : List Pair} (hpairs : ∀ pair ∈ pairs, pair.value.Distinct)
    {v : Node} (h : bracedTable pairs = some v) : v.Distinct := by
  obtain ⟨es, hes, rfl⟩ := Option.map_eq_some_iff.mp h
  refine distinct_table_iff.mpr (of_foldlM (fun pair hpair es es' hes hadd => ?_) .nil hes)
  exact distinct_addPair hes (hpairs pair hpair) hadd

/-! ### Values -/

theorem distinct_readBased {base : Nat} {t rest : Text} {v : Node}
    (h : readBased base t = some (v, rest)) : v.Distinct := by
  simp only [readBased, Option.bind_eq_bind, Option.bind_eq_some_iff] at h
  obtain ⟨_, -, n, -, hv⟩ := h
  cases hv
  exact .integer n

theorem distinct_readDecimal {negative : Bool} {t rest : Text} {v : Node}
    (h : readDecimal negative t = some (v, rest)) : v.Distinct := by
  simp only [readDecimal, Option.bind_eq_bind, Option.bind_eq_some_iff] at h
  obtain ⟨_, -, _, -, _, -, h⟩ := h
  split at h
  · obtain ⟨n, -, hv⟩ := Option.bind_eq_some_iff.mp h
    cases hv
    exact .integer n
  · obtain ⟨x, -, hv⟩ := Option.bind_eq_some_iff.mp h
    cases hv
    exact .real x

theorem distinct_readNumber {t rest : Text} {v : Node} (h : readNumber t = some (v, rest)) :
    v.Distinct := by
  unfold readNumber at h
  split at h
  · exact distinct_readBased h
  · exact distinct_readBased h
  · exact distinct_readBased h
  · split at h
    · cases h
      exact .real _
    · cases h
      exact .real _
    · exact distinct_readDecimal h

theorem distinct_readScalarValue {t rest : Text} {v : Node}
    (h : readScalarValue t = some (v, rest)) : v.Distinct := by
  unfold readScalarValue at h
  split at h
  · obtain ⟨_, -, hv⟩ := Option.map_eq_some_iff.mp h
    cases hv
    exact .string _
  · obtain ⟨_, -, hv⟩ := Option.map_eq_some_iff.mp h
    cases hv
    exact .string _
  · cases h
    exact .boolean true
  · cases h
    exact .boolean false
  · split at h
    · cases h
      exact .moment
    · exact distinct_readNumber h

section Items

variable {item : Text → Option (Node × Text)}
  (hitem : ∀ t v rest, item t = some (v, rest) → v.Distinct)

include hitem

theorem distinct_readItems {t rest : Text} {items : List Node}
    (h : readItems item t = some (items, rest)) : ∀ v ∈ items, v.Distinct := by
  fun_induction readItems item t generalizing items rest with
  | case2 =>
    cases h
    exact List.forall_mem_nil _
  | case4 _ _ _ _ v _ hv _ _ _ ih =>
    obtain ⟨⟨items', _⟩, hitems, heq⟩ := Option.map_eq_some_iff.mp h
    cases heq
    exact List.forall_mem_cons.mpr ⟨hitem _ _ _ hv, ih hitems⟩
  | case6 _ _ _ _ v _ hv =>
    cases h
    exact List.forall_mem_singleton.mpr (hitem _ _ _ hv)
  | _ => cases h

theorem distinct_readPair {t rest : Text} {pair : Pair} (h : readPair item t = some (pair, rest)) :
    pair.value.Distinct := by
  simp only [readPair, Option.bind_eq_bind, Option.bind_eq_some_iff] at h
  obtain ⟨_, -, _, -, ⟨v, _⟩, hv, hpair⟩ := h
  cases hpair
  exact hitem _ _ _ hv

theorem distinct_readPairs {t rest : Text} {pairs : List Pair}
    (h : readPairs item t = some (pairs, rest)) : ∀ pair ∈ pairs, pair.value.Distinct := by
  fun_induction readPairs item t generalizing pairs rest with
  | case2 _ pair _ hpair _ ih =>
    obtain ⟨⟨pairs', _⟩, hpairs, heq⟩ := Option.map_eq_some_iff.mp h
    cases heq
    exact List.forall_mem_cons.mpr ⟨distinct_readPair hitem hpair, ih hpairs⟩
  | case4 _ pair _ hpair =>
    cases h
    exact List.forall_mem_singleton.mpr (distinct_readPair hitem hpair)
  | _ => cases h

theorem distinct_readBraced {t rest : Text} {v : Node} (h : readBraced item t = some (v, rest)) :
    v.Distinct := by
  unfold readBraced at h
  split at h
  · cases h
    exact distinct_table_iff.mpr .nil
  · simp only [Option.bind_eq_bind, Option.bind_eq_some_iff] at h
    obtain ⟨⟨pairs, _⟩, hpairs, v', hv, heq⟩ := h
    cases heq
    exact distinct_bracedTable (distinct_readPairs hitem hpairs) hv

end Items

theorem distinct_readValue {depth : Nat} {t rest : Text} {v : Node}
    (h : readValue depth t = some (v, rest)) : v.Distinct := by
  induction depth generalizing t v rest with
  | zero => exact distinct_readScalarValue h
  | succ depth ih =>
    have hitem : ∀ t v rest, readValue depth t = some (v, rest) → v.Distinct := fun _ _ _ => ih
    unfold readValue at h
    split at h
    · obtain ⟨⟨items, _⟩, hitems, heq⟩ := Option.map_eq_some_iff.mp h
      cases heq
      exact .array (distinct_readItems hitem hitems)
    · exact distinct_readBraced hitem h
    · exact distinct_readScalarValue h

/-! ### Statements -/

/-- The value of a pair has no name twice; headers have no values. -/
def Statement.Distinct : Statement → Prop
  | pair p => p.value.Distinct
  | header _ | listHeader _ => True

theorem distinct_readHeader {double : Bool} {t rest : Text} {statement : Statement}
    (h : readHeader double t = some (statement, rest)) : statement.Distinct := by
  simp only [readHeader, Option.bind_eq_bind, Option.bind_eq_some_iff] at h
  obtain ⟨_, -, _, -, h⟩ := h
  split at h
  · simp only [Option.bind_eq_some_iff] at h
    obtain ⟨_, -, _, -, heq⟩ := h
    cases heq
    trivial
  · simp only [Option.bind_eq_some_iff] at h
    obtain ⟨_, -, heq⟩ := h
    cases heq
    trivial

theorem distinct_readLine {t rest : Text} {statement : Option Statement}
    (h : readLine t = some (statement, rest)) : ∀ s ∈ statement, s.Distinct := by
  have hidle : ∀ t : Text, (passLineEnd t).map (fun t => (none, t)) = some (statement, rest) →
      ∀ s ∈ statement, s.Distinct := by
    intro t ht
    obtain ⟨_, -, heq⟩ := Option.map_eq_some_iff.mp ht
    cases heq
    exact fun s hs => nomatch hs
  have hheader : ∀ (double : Bool) (t : Text),
      (readHeader double t).map (fun r => (some r.1, r.2)) = some (statement, rest) →
      ∀ s ∈ statement, s.Distinct := by
    intro double t ht
    obtain ⟨r, hr, heq⟩ := Option.map_eq_some_iff.mp ht
    cases heq
    rintro s ⟨⟩
    exact distinct_readHeader hr
  unfold readLine at h
  split at h
  · exact hidle _ h
  · exact hidle _ h
  · exact hidle _ h
  · exact hheader true _ h
  · exact hheader false _ h
  · simp only [Option.bind_eq_bind, Option.bind_eq_some_iff] at h
    obtain ⟨⟨pair, _⟩, hpair, _, -, heq⟩ := h
    cases heq
    rintro s ⟨⟩
    exact distinct_readPair (fun _ _ _ => distinct_readValue) hpair

theorem distinct_readStatements {t : Text} {statements : List Statement}
    (h : readStatements t = some statements) : ∀ s ∈ statements, s.Distinct := by
  fun_induction readStatements t generalizing statements with
  | case1 =>
    cases h
    exact List.forall_mem_nil _
  | case3 =>
    rename_i hline ih
    obtain ⟨rest, hrest, rfl⟩ := Option.map_eq_some_iff.mp h
    intro s hs
    rcases List.mem_append.mp hs with hs | hs
    · exact distinct_readLine hline s (Option.mem_toList.mp hs)
    · exact ih hrest s hs
  | _ => cases h

/-! ### Documents -/

/-- No table of a document under construction has a name twice. -/
structure Draft.Distinct (d : Draft) : Prop where
  /-- Neither outside the open table -/
  root : Toml.Distinct d.root
  /-- nor in it. -/
  current : Toml.Distinct d.current

theorem distinct_put {place : Place} {current es es' : Entries} (hcurrent : Distinct current)
    (hes : Distinct es) (h : Draft.put place current es = some es') : Distinct es' := by
  have hopen : (Node.table .explicit current).Distinct := distinct_table_iff.mpr hcurrent
  have htable := hes.insert hopen place.name
  unfold Draft.put at h
  split at h
  · cases h
    refine hes.insert (distinct_tables_iff.mpr fun inner hinner => ?_) place.name
    rw [List.mem_singleton.mp hinner]
    exact hcurrent
  · rename_i elements _ hlookup
    cases h
    refine hes.insert (distinct_tables_iff.mpr fun inner hinner => ?_) place.name
    rcases List.mem_append.mp hinner with hinner | hinner
    · exact distinct_tables_iff.mp (hes.lookup hlookup) inner hinner
    · rw [List.mem_singleton.mp hinner]
      exact hcurrent
  · cases h
  · cases h
    exact htable
  · split at h
    · cases h
      exact htable
    · cases h
  · cases h

theorem distinct_close {d : Draft} (hd : d.Distinct) {es : Entries} (h : d.close = some es) :
    Distinct es := by
  unfold Draft.close at h
  split at h
  · cases h
    exact hd.current
  · obtain ⟨r, hr, rfl⟩ := Option.map_eq_some_iff.mp h
    refine (distinct_descend (P := fun _ => True) (fun _ inner r hinner hchange => ?_) hd.root hr).2
    obtain ⟨es, hes, rfl⟩ := Option.map_eq_some_iff.mp hchange
    exact ⟨trivial, distinct_put hd.current hinner hes⟩

theorem distinct_takeUp {name : Text} {es : Entries} {r : Entries × Entries} (hes : Distinct es)
    (h : Draft.takeUp name es = some r) : Distinct r.1 ∧ Distinct r.2 := by
  unfold Draft.takeUp at h
  split at h
  · cases h
    exact ⟨.nil, hes⟩
  · rename_i hlookup
    split at h
    · cases h
      exact ⟨distinct_table_iff.mp (hes.lookup hlookup), hes.filter _⟩
    · cases h
  · cases h

theorem distinct_checkList {name : Text} {es : Entries} {r : Entries × Entries} (hes : Distinct es)
    (h : Draft.checkList name es = some r) : Distinct r.1 ∧ Distinct r.2 := by
  unfold Draft.checkList at h
  split at h
  · cases h
    exact ⟨.nil, hes⟩
  · cases h
    exact ⟨.nil, hes⟩
  · cases h

theorem distinct_openTable {d d' : Draft} (hd : d.Distinct) {listed : Bool} {parts : List Text}
    (h : d.openTable listed parts = some d') : d'.Distinct := by
  simp only [Draft.openTable, Option.bind_eq_bind, Option.bind_eq_some_iff] at h
  obtain ⟨root, hroot, ⟨current, root'⟩, hr, heq⟩ := h
  cases heq
  have hopened := distinct_descend (P := Distinct) (fun _ inner r hinner hstart => ?_)
    (distinct_close hd hroot) hr
  · exact ⟨hopened.2, hopened.1⟩
  · cases listed with
    | true => exact distinct_checkList hinner hstart
    | false => exact distinct_takeUp hinner hstart

/-- A statement keeps the property, whether it adds a pair or opens a table. -/
theorem distinct_step {d d' : Draft} (hd : d.Distinct) {statement : Statement}
    (hs : statement.Distinct) (h : d.step statement = some d') : d'.Distinct := by
  cases statement with
  | pair p =>
    obtain ⟨current, hcurrent, rfl⟩ := Option.map_eq_some_iff.mp h
    exact ⟨hd.root, distinct_addPair hd.current hs hcurrent⟩
  | header parts => exact distinct_openTable hd h
  | listHeader parts => exact distinct_openTable hd h

theorem distinct_run {statements : List Statement} (hs : ∀ s ∈ statements, s.Distinct) {es : Entries}
    (h : Draft.run statements = some es) : Distinct es := by
  obtain ⟨d, hd, hclose⟩ := Option.bind_eq_some_iff.mp h
  have hempty : Draft.empty.Distinct := ⟨.nil, .nil⟩
  refine distinct_close (of_foldlM (fun s hmem d d' hd hstep => ?_) hempty hd) hclose
  exact distinct_step hd (hs s hmem) hstep

/-- **No table of a document has a name twice**, the outermost one included. -/
theorem distinct_readDocument {t : Text} {es : Entries} (h : readDocument t = some es) :
    Distinct es := by
  obtain ⟨statements, hstatements, hrun⟩ := Option.bind_eq_some_iff.mp h
  exact distinct_run (distinct_readStatements hstatements) hrun

end FormRules.Toml
