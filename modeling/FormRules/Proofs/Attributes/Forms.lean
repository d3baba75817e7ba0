import FormRules.Attributes.Basic
import FormRules.Proofs.OrderedMap.Algebra

/-!
# Attributes of forms

The attributes of a form are those of its fields, each by itself: the fields stay in their order
(`keys_attributes`), and a field has the attributes of its own rule text (`get?_attributes`). So a field
may be inserted into a form, or its attributes into those of the form, with the same outcome
(`attributes_insert`), and a history of insertions runs through both maps alike
(`attributes_insertAll`).
-/

namespace FormRules.Form

variable (form : Form) (policy : ReadingPolicy)

theorem keys_attributes : (form.attributes policy).keys = form.keys :=
  OrderedMap.keys_map policy.attributes form

theorem get?_attributes (field : Text) :
    (form.attributes policy).get? field = (form.get? field).map policy.attributes :=
  OrderedMap.get?_map policy.attributes form field

/-- Inserting a field and taking attributes can be done in either order. -/
theorem attributes_insert (field rules : Text) :
    Form.attributes (form.insert field rules) policy =
      (form.attributes policy).insert field (policy.attributes rules) :=
  OrderedMap.map_insert policy.attributes form field rules

theorem attributes_insertAll (log : List (Text × Text)) :
    Form.attributes (form.insertAll log) policy =
      (form.attributes policy).insertAll (log.map fun e => (e.1, policy.attributes e.2)) :=
  OrderedMap.map_insertAll policy.attributes form log

/-- What one insertion does to the attributes of a form: a field that is there stays in its place and a
new one goes to the end, the field has the attributes of its rule text, and the other fields keep
theirs. -/
theorem attributes_after_insert (field rules : Text) :
    let m := form.attributes policy
    let m' := Form.attributes (form.insert field rules) policy
    (field ∈ m.keys → m'.keys = m.keys) ∧ (field ∉ m.keys → m'.keys = m.keys ++ [field]) ∧
      m'.get? field = some (policy.attributes rules) ∧
      ∀ other, other ≠ field → m'.get? other = m.get? other := by
  intro m m'
  have hinsert : m' = m.insert field (policy.attributes rules) :=
    attributes_insert form policy field rules
  rw [hinsert]
  refine ⟨fun hmem => OrderedMap.keys_insert_of_mem hmem _,
    fun hmem => OrderedMap.keys_insert_of_notMem hmem _, ?_, fun other hother => ?_⟩
  · rw [OrderedMap.get?_insert, if_pos rfl]
  · rw [OrderedMap.get?_insert, if_neg (Ne.symm hother)]

/-- **The attributes of a form follow its fields.** After an insertion into the form they are what the
same insertion, of the attributes of the new rule text, makes of them. So after any history of
insertions, into an empty form or into any other, they list the fields of the form in its order, a
field without attributes included; each field has the attributes of the rule text that came last, and
nothing else is listed. One more insertion moves no field, and it leaves the attributes of all other
fields as they are. -/
theorem attributes_follow_insertions :
    (∀ field rules, Form.attributes (form.insert field rules) policy =
      (form.attributes policy).insert field (policy.attributes rules)) ∧
    ∀ log : List (Text × Text),
      let later : Form := form.insertAll log
      let m := later.attributes policy
      m = (form.attributes policy).insertAll (log.map fun e => (e.1, policy.attributes e.2)) ∧
      m.keys = later.keys ∧
      (∀ field, m.get? field = (later.get? field).map policy.attributes) ∧
      m.Records ((form.entries ++ log).map fun e => (e.1, policy.attributes e.2)) ∧
      (∀ field rules, later.get? field = some rules → policy.attributes rules = .empty →
        field ∈ m.keys ∧ m.get? field = some .empty) ∧
      ∀ field rules,
        let m' := Form.attributes (later.insert field rules) policy
        (field ∈ m.keys → m'.keys = m.keys) ∧ (field ∉ m.keys → m'.keys = m.keys ++ [field]) ∧
        m'.get? field = some (policy.attributes rules) ∧
        ∀ other, other ≠ field → m'.get? other = m.get? other := by
  refine ⟨attributes_insert form policy, fun log => ?_⟩
  intro later m
  have hrecords : later.Records (form.entries ++ log) := OrderedMap.records_insertAll form log
  have hkeys : m.keys = later.keys := keys_attributes later policy
  refine ⟨attributes_insertAll form policy log, hkeys, get?_attributes later policy,
    hrecords.map policy.attributes, ?_, attributes_after_insert later policy⟩
  intro field rules hrules hempty
  constructor
  · rw [hkeys]
    exact List.mem_map_of_mem ((OrderedMap.mem_entries_iff later).mpr hrules)
  · rw [get?_attributes, hrules, Option.map_some, hempty]

/-- A field that loses its attributes stays listed, and it stays in front of the one that came
later. -/
theorem attributes_follow_insertions_of_emptied_field :
    let policy : ReadingPolicy := ⟨.skip, .truncate⟩
    let form : Form := .ofList [("a".toList, "min:1".toList)]
    let log := [("b".toList, "max:2|min:1".toList), ("a".toList, "|".toList)]
    let m := Form.attributes (form.insertAll log) policy
    (form.insertAll log).get? "a".toList = some "|".toList ∧ policy.attributes "|".toList = .empty ∧
      m.get? "a".toList = some .empty ∧ m.keys = ["a".toList, "b".toList] ∧
      (Form.attributes ((form.insertAll log).insert "b".toList []) policy).get? "a".toList =
        m.get? "a".toList := by
  intro policy form log m
  obtain ⟨-, hhistory⟩ := attributes_follow_insertions form policy
  obtain ⟨-, hkeys, -, -, hempty, hinsert⟩ := hhistory log
  have hrules : (form.insertAll log).get? "a".toList = some "|".toList := by decide
  have hnone : policy.attributes "|".toList = .empty := OrderedMap.eq_of_entries_eq (by decide)
  refine ⟨hrules, hnone, (hempty _ _ hrules hnone).2, hkeys.trans (by decide), ?_⟩
  exact (hinsert "b".toList []).2.2.2 "a".toList (by decide)

end FormRules.Form
