import FormRules.Attributes.Basic
import FormRules.Proofs.OrderedMap.Records

/-!
# The attributes of a field as a record of its writes

The rules of a rule text write their attributes one after the other, one or two for each rule, and
different rules may write to one key: two rows of the table may share a suffix, and the name of an
unrecognized rule may be the suffix of a row. Whatever the collisions are, the attributes of a field
record the writes in the sense of `OrderedMap.Records`: the order is that of the first writes, the
values are those of the last.

The writing of one rule extends the recorded log by what the rule writes (`records_write`), and a run
over a list of rules extends it by what these write in turn (`records_foldl_write`).
-/

namespace FormRules

namespace Attributes

/-- The attributes after a rule has written its own, one after the other. -/
def write (m : Attributes) (r : Rule) : Attributes :=
  r.attributes.foldl (fun m a => m.insert a.key a.value) m

theorem write_eq_insertAll (m : Attributes) (r : Rule) :
    write m r = m.insertAll (r.attributes.map fun a => (a.key, a.value)) := by
  rw [write, OrderedMap.insertAll, List.foldl_map]

/-- The writing of a rule extends the recorded log by what the rule writes. -/
theorem records_write {m : Attributes} {log : List (Text × Text)} (h : m.Records log) (r : Rule) :
    (write m r).Records (log ++ r.attributes.map fun a => (a.key, a.value)) := by
  rw [write_eq_insertAll]
  exact h.insertAll _

/-- The writing of several rules in turn extends the recorded log by what each of them writes. -/
theorem records_foldl_write {m : Attributes} {log : List (Text × Text)} (h : m.Records log)
    (rs : List Rule) :
    (rs.foldl write m).Records
      (log ++ rs.flatMap fun r => r.attributes.map fun a => (a.key, a.value)) := by
  induction rs generalizing m log with
  | nil => simpa using h
  | cons r rs ih =>
    rw [List.foldl_cons, List.flatMap_cons, ← List.append_assoc]
    exact ih (records_write h r)

end Attributes

namespace ReadingPolicy

/-- The attributes of a field arise from the empty map by the writing of its rules in turn. -/
theorem attributes_eq_foldl_write (policy : ReadingPolicy) (rules : Text) :
    policy.attributes rules = (Rule.ofText policy rules).foldl Attributes.write .empty := by
  rw [attributes, OrderedMap.ofList, writes]
  generalize (OrderedMap.empty : Attributes) = m
  induction Rule.ofText policy rules generalizing m with
  | nil => rfl
  | cons r rs ih =>
    rw [List.flatMap_cons, OrderedMap.insertAll_append, ih, List.foldl_cons,
      Attributes.write_eq_insertAll]

/-- **The attributes of a field** hold each key that its rules write to, once and in the order of
the first writes, and at each key what was written there last; and they are the only map that
does. -/
theorem attributes_first_keys_last_values (policy : ReadingPolicy) (rules : Text) :
    (policy.attributes rules).keys.Nodup ∧
    (∀ k, k ∈ (policy.attributes rules).keys ↔ k ∈ (policy.writes rules).map Prod.fst) ∧
    ∀ m : Attributes, m = policy.attributes rules ↔ m.Records (policy.writes rules) := by
  have hrec : (policy.attributes rules).Records (policy.writes rules) := by
    rw [attributes_eq_foldl_write]
    exact Attributes.records_foldl_write OrderedMap.Records.nil _
  refine ⟨(policy.attributes rules).nodup, hrec.mem_keys_iff, fun m => ?_⟩
  constructor
  · rintro rfl
    exact hrec
  · intro h
    exact h.eq hrec

/-- A later rule writes over an earlier one and leaves the key in its place. -/
example : ((default : ReadingPolicy).attributes "alpha|required|string".toList).entries =
    [("data-parsley-pattern".toList, ".+".toList),
      ("data-parsley-required".toList, "true".toList)] := by
  decide

end ReadingPolicy

end FormRules
