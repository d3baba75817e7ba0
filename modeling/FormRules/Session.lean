import FormRules.Form.Load
import FormRules.Settings.Load

/-!
# Sessions

A session holds a form, at first without fields, and a policy for reading rule texts, at first the
default one. Its steps change the form, replace it or the policy, or ask for attributes. A step that
fails changes nothing, and a step that asks changes nothing.
-/

namespace FormRules

/-- What a session holds. -/
structure Session where
  /-- The form. -/
  form : Form := .empty
  /-- How rule texts are read. -/
  policy : ReadingPolicy := {}

namespace Session

/-- A step of a session. -/
inductive Step where
  /-- Gives a field its rule text. -/
  | insert (field rules : Text)
  /-- Takes the policy from a settings file. -/
  | configure (files : FileView) (path : Text)
  /-- Replaces the form by one that is read from a text. -/
  | read (format : FileFormat) (content : Text)
  /-- Asks for the attributes of the form. -/
  | attributes
  /-- Asks for the attributes of the form under the default policy. -/
  | usualAttributes
  /-- Asks for the attributes of a field with some rule text. -/
  | fieldAttributes (rules : Text)

/-- What a session answers to a step. -/
inductive Answer where
  /-- The rule text that the field had before, and the form. -/
  | inserted (old : Option Text) (form : Form)
  /-- The settings that were loaded. -/
  | configured (settings : Settings)
  /-- The form that was read. -/
  | formRead (form : Form)
  /-- The attributes of the form. -/
  | attributes (m : FormAttributes)
  /-- The attributes of a field. -/
  | fieldAttributes (m : Attributes)
  /-- Why the step failed. -/
  | failed (f : Failure)

/-- Takes a step: the session after it, and the answer. -/
def step (s : Session) : Step → Session × Answer
  | .insert field rules =>
    let form := s.form.insert field rules
    ({ s with form := form }, .inserted (s.form.get? field) form)
  | .configure files path =>
    match Settings.load files path with
    | .ok settings => ({ s with policy := settings.reading }, .configured settings)
    | .error f => (s, .failed f)
  | .read format content =>
    match Form.read format content with
    | .ok form => ({ s with form := form }, .formRead form)
    | .error f => (s, .failed f)
  | .attributes => (s, .attributes (s.form.attributes s.policy))
  | .usualAttributes => (s, .attributes s.form.attributes)
  | .fieldAttributes rules => (s, .fieldAttributes (s.policy.attributes rules))

/-- The answers to a list of steps, taken one after the other. -/
def answers (s : Session) : List Step → List Answer
  | [] => []
  | step :: steps => (s.step step).2 :: (s.step step).1.answers steps

/-- The session after a list of steps. -/
def after (s : Session) (steps : List Step) : Session := steps.foldl (fun s step => (s.step step).1) s

end Session

end FormRules
