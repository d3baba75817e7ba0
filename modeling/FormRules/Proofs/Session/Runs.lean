import FormRules.Proofs.OrderedMap.Records
import FormRules.Session
import Mathlib.Data.List.Induction

/-!
# Runs of sessions

What a session holds after a run of steps, and so what it answers, is told by the steps alone. Of the
steps that read a form or settings only the last that succeeds counts, and of the insertions only
those behind the last form that was read: `Latest` singles such a step out, with the steps behind it.
`Replays` and `Governs` say from this which form and which policy a run leaves.

What one step does to the form and to the policy is one equation each (`form_step`, `policy_step`),
whatever the step is. From these a run is followed from its end (`replays_after`, `governs_after`). A
step that fails or asks leaves the session as it is (`step_eq_self`), so such steps may be taken out of
a run wherever they stand (`answers_pick`).
-/

namespace FormRules.Session

/-! ### Steps -/

namespace Step

/-- The settings that a step takes the policy from, if it succeeds in loading them. -/
def settings? : Step → Option Settings
  | configure files path => (Settings.load files path).toOption
  | _ => none

/-- The form that a step replaces the session's form by, if it succeeds in reading it. -/
def form? : Step → Option Form
  | read format content => (Form.read format content).toOption
  | _ => none

/-- The field with its rule text that a step inserts. -/
def field? : Step → Option (Text × Text)
  | insert field rules => some (field, rules)
  | _ => none

/-- Whether a step only asks for attributes. -/
def Asks : Step → Prop
  | attributes | usualAttributes | fieldAttributes _ => True
  | _ => False

end Step

variable (s : Session) (a : Step)

/-- What a step does to the form: it is replaced if one is read, and then a field is inserted if the
step inserts one. -/
theorem form_step : (s.step a).1.form = (a.form?.getD s.form).insertAll a.field?.toList := by
  cases a with
  | configure files path =>
    rw [step]
    cases Settings.load files path <;> rfl
  | read format content =>
    rw [step, Step.form?]
    cases Form.read format content <;> rfl
  | _ => rfl

/-- What a step does to the policy: it is replaced if settings are loaded. -/
theorem policy_step :
    (s.step a).1.policy = (a.settings?.map Settings.reading).getD s.policy := by
  cases a with
  | configure files path =>
    rw [step, Step.settings?]
    cases Settings.load files path <;> rfl
  | read format content =>
    rw [step]
    cases Form.read format content <;> rfl
  | _ => rfl

/-- A step that fails leaves the session as it is. -/
theorem step_of_failed {f : Failure} (h : (s.step a).2 = .failed f) : (s.step a).1 = s := by
  cases a with
  | configure files path =>
    rw [step] at h ⊢
    cases hload : Settings.load files path with
    | ok settings =>
      rw [hload] at h
      cases h
    | error f => rfl
  | read format content =>
    rw [step] at h ⊢
    cases hread : Form.read format content with
    | ok form =>
      rw [hread] at h
      cases h
    | error f => rfl
  | _ => cases h

/-- A step that asks leaves the session as it is. -/
theorem step_of_asks {a : Step} (h : a.Asks) : (s.step a).1 = s := by
  cases a with
  | attributes => rfl
  | usualAttributes => rfl
  | fieldAttributes rules => rfl
  | _ => exact h.elim

theorem step_eq_self {a : Step} (h : a.Asks ∨ ∃ f, (s.step a).2 = .failed f) :
    (s.step a).1 = s := by
  rcases h with hasks | ⟨f, hfailed⟩
  · exact step_of_asks s hasks
  · exact step_of_failed s a hfailed

/-! ### Runs -/

theorem after_concat (steps : List Step) :
    s.after (steps ++ [a]) = ((s.after steps).step a).1 := by
  rw [after, List.foldl_append]
  rfl

/-- An answer is given by the session after the steps before. -/
theorem getElem?_answers (steps : List Step) (i : Nat) :
    (s.answers steps)[i]? = steps[i]?.map fun a => ((s.after (steps.take i)).step a).2 := by
  induction steps generalizing s i with
  | nil => rfl
  | cons a steps ih =>
    cases i with
    | zero => rfl
    | succ i => exact ih (s.step a).1 i

/-! ### Taking steps out of a run -/

/-- The items of a list at the places that are kept. -/
def pick {α : Type} (keep : Nat → Bool) : List α → List α
  | [] => []
  | a :: l =>
    if keep 0 then a :: pick (fun i => keep (i + 1)) l else pick (fun i => keep (i + 1)) l

/-- Whether each step at a place that is not kept fails in the run, or only asks. -/
def Spares (steps : List Step) (keep : Nat → Bool) : Prop :=
  ∀ i a, steps[i]? = some a → keep i = false →
    a.Asks ∨ ∃ f, (s.answers steps)[i]? = some (.failed f)

/-- Without some of the steps that fail or ask, the other steps get the same answers. -/
theorem answers_pick {steps : List Step} {keep : Nat → Bool} (h : s.Spares steps keep) :
    s.answers (pick keep steps) = pick keep (s.answers steps) := by
  induction steps generalizing s keep with
  | nil => rfl
  | cons a steps ih =>
    have hrest : (s.step a).1.Spares steps fun i => keep (i + 1) :=
      fun i b hb hkeep => h (i + 1) b hb hkeep
    rw [answers, pick, pick]
    cases hkeep : keep 0 with
    | true =>
      simp only [if_true]
      rw [answers, ih _ hrest]
    | false =>
      have hself : (s.step a).1 = s := by
        apply step_eq_self
        rcases h 0 a rfl hkeep with hasks | ⟨f, hfailed⟩
        · exact Or.inl hasks
        · exact Or.inr ⟨f, Option.some.inj hfailed⟩
      rw [hself] at hrest ⊢
      simp only [Bool.false_eq_true, if_false]
      exact ih s hrest

/-! ### What a run leaves -/

/-- The last step of a run at which `f` gives something, with what it gives there and the steps behind
it; if there is no such step, nothing and all steps. -/
inductive Latest {β : Type} (f : Step → Option β) : List Step → Option β → List Step → Prop where
  /-- There is no such step. -/
  | none {steps : List Step} : (∀ a ∈ steps, f a = .none) → Latest f steps .none steps
  /-- The last such step. -/
  | some {before since : List Step} {a : Step} {b : β} : f a = .some b →
      (∀ c ∈ since, f c = .none) → Latest f (before ++ a :: since) (.some b) since

/-- A step at which `f` gives nothing goes to those behind. -/
theorem Latest.concat_none {β : Type} {f : Step → Option β} {steps since : List Step} {b : Option β}
    (h : Latest f steps b since) {a : Step} (ha : f a = .none) :
    Latest f (steps ++ [a]) b (since ++ [a]) := by
  cases h with
  | none hsteps =>
    refine .none fun c hc => ?_
    rcases List.mem_append.mp hc with hc | hc
    · exact hsteps c hc
    · rw [List.mem_singleton.mp hc, ha]
  | @some before _ c b hb hsince =>
    rw [List.append_assoc, List.cons_append]
    refine .some hb fun c hc => ?_
    rcases List.mem_append.mp hc with hc | hc
    · exact hsince c hc
    · rw [List.mem_singleton.mp hc, ha]

/-- A step at which `f` gives something is the last such step. -/
theorem Latest.concat_some {β : Type} {f : Step → Option β} (steps : List Step) {a : Step} {b : β}
    (ha : f a = .some b) : Latest f (steps ++ [a]) (.some b) [] :=
  .some ha fun _ hc => absurd hc List.not_mem_nil

/-- The form that a run leaves: the one that was read last, or the empty one, with the fields that
were inserted since. A field stands where its name came first and has the rule text that came last. -/
def Replays (steps : List Step) (form : Form) : Prop :=
  ∃ base since, Latest Step.form? steps base since ∧
    form = (base.getD .empty).insertAll (since.filterMap Step.field?) ∧
    form.Records ((base.getD .empty).entries ++ since.filterMap Step.field?)

/-- The policy that a run leaves: that of the settings that were loaded last, or the default one. -/
def Governs (steps : List Step) (policy : ReadingPolicy) : Prop :=
  ∃ settings since, Latest Step.settings? steps settings since ∧
    policy = (settings.map Settings.reading).getD default

theorem replays_of_latest {steps since : List Step} {base : Option Form}
    (h : Latest Step.form? steps base since) :
    Replays steps ((base.getD .empty).insertAll (since.filterMap Step.field?)) :=
  ⟨base, since, h, rfl, OrderedMap.records_insertAll _ _⟩

/-- After a run the form is the one that the run leaves. -/
theorem replays_after (steps : List Step) : Replays steps (after {} steps).form := by
  induction steps using List.reverseRecOn with
  | nil => exact replays_of_latest (.none fun _ ha => absurd ha List.not_mem_nil)
  | append_singleton steps a ih =>
    obtain ⟨base, since, hlatest, hform, -⟩ := ih
    rw [after_concat, form_step]
    cases ha : a.form? with
    | none =>
      have hreplay := replays_of_latest (hlatest.concat_none ha)
      rw [List.filterMap_append, OrderedMap.insertAll_append, ← hform] at hreplay
      have hfield : [a].filterMap Step.field? = a.field?.toList := by
        cases hf : a.field? <;> simp [hf]
      rwa [hfield] at hreplay
    | some form =>
      -- a step that reads a form inserts no field
      have hfield : a.field? = none := by
        cases a with
        | read format content => rfl
        | _ => cases ha
      rw [hfield]
      exact replays_of_latest (Latest.concat_some steps ha)

/-- After a run the policy is the one that the run leaves. -/
theorem governs_after (steps : List Step) : Governs steps (after {} steps).policy := by
  induction steps using List.reverseRecOn with
  | nil => exact ⟨none, [], .none fun _ ha => absurd ha List.not_mem_nil, rfl⟩
  | append_singleton steps a ih =>
    obtain ⟨settings, since, hlatest, hpolicy⟩ := ih
    rw [after_concat, policy_step]
    cases ha : a.settings? with
    | none => exact ⟨settings, since ++ [a], hlatest.concat_none ha, hpolicy⟩
    | some loaded => exact ⟨some loaded, [], Latest.concat_some steps ha, rfl⟩

/-! ### The law of runs -/

/-- **Every run of a session** from its beginning is told by the steps alone. After any number of steps
the form is the one that these steps leave, and it holds no field twice. A step that fails changes
nothing, so that any steps that fail or ask may be taken out of the run without changing another
answer. And attributes are those of the form that the steps before leave, with the policy that they
leave or with the default one. -/
theorem run_follows_last_read_and_settings (steps : List Step) :
    (∀ n, Replays (steps.take n) (after {} (steps.take n)).form ∧
      (after {} (steps.take n)).form.keys.Nodup) ∧
    (∀ (s : Session) a f, (s.step a).2 = .failed f → (s.step a).1 = s) ∧
    (∀ keep, Spares {} steps keep → answers {} (pick keep steps) = pick keep (answers {} steps)) ∧
    (∀ i, steps[i]? = some .attributes →
      ∃ form policy, Replays (steps.take i) form ∧ Governs (steps.take i) policy ∧
        (answers {} steps)[i]? = some (.attributes (form.attributes policy))) ∧
    ∀ i, steps[i]? = some .usualAttributes →
      ∃ form, Replays (steps.take i) form ∧
        (answers {} steps)[i]? = some (.attributes (form.attributes default)) := by
  refine ⟨fun n => ⟨replays_after _, OrderedMap.nodup _⟩, fun s a f h => step_of_failed s a h,
    fun keep h => answers_pick {} h, fun i hi => ?_, fun i hi => ?_⟩
  · refine ⟨_, _, replays_after (steps.take i), governs_after (steps.take i), ?_⟩
    rw [getElem?_answers, hi]
    rfl
  · refine ⟨_, replays_after (steps.take i), ?_⟩
    rw [getElem?_answers, hi]
    rfl

/-- A run with a form that cannot be read, a settings file that is there but may not be read, and a
question in the middle: the settings file fails and changes nothing, and without these steps the last
answer is the same. -/
theorem run_follows_last_read_and_settings_of_failures :
    let locked : FileView := fun _ => .ok (.unreadable .notPermitted)
    let steps : List Step := [.insert "a".toList "min:1".toList, .read .json "[]".toList,
      .configure locked "c.toml".toList, .attributes, .insert "a".toList "max:2".toList,
      .usualAttributes]
    let keep : Nat → Bool := fun i => i ∉ [1, 2, 3]
    (∀ s : Session, (s.step (.configure locked "c.toml".toList)).1 = s) ∧
      answers {} [.insert "a".toList "min:1".toList, .insert "a".toList "max:2".toList,
        .usualAttributes] = pick keep (answers {} steps) ∧
      (∃ form policy, Replays (steps.take 3) form ∧ Governs (steps.take 3) policy ∧
        (answers {} steps)[3]? = some (.attributes (form.attributes policy))) ∧
      ∃ form, Replays (steps.take 5) form ∧
        (answers {} steps)[5]? = some (.attributes (form.attributes default)) := by
  intro locked steps keep
  obtain ⟨-, hfailed, hpick, hattributes, husual⟩ := run_follows_last_read_and_settings steps
  have hspares : Spares {} steps keep := by
    intro i a ha hkeep
    have hi : i ∈ [1, 2, 3] := not_not.mp (of_decide_eq_false hkeep)
    simp only [List.mem_cons, List.not_mem_nil, or_false] at hi
    rcases hi with rfl | rfl | rfl
    · exact Or.inr ⟨_, rfl⟩
    · exact Or.inr ⟨_, rfl⟩
    · cases ha
      exact Or.inl trivial
  exact ⟨fun s => hfailed s _ _ rfl, hpick keep hspares, hattributes 3 rfl, husual 5 rfl⟩

end FormRules.Session
