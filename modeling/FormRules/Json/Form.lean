import FormRules.Attributes.Basic
import FormRules.Json.Number
import FormRules.Json.Quoted

/-!
# Forms in JSON

A form is written as an object of strings: its fields with their rule texts. Blanks may stand around
every part. Fields are read in document order, and a field that comes again keeps its place and takes
the later rule text; two spellings of one name are one field.

A value of the wrong kind is a fault as soon as it is recognized: at the opening bracket of an array
or an object, after the last letter of a word, after the last character of a number.
-/

namespace FormRules.Json

/-- The fault of a value that is not the wanted one, seen at the value's first character. -/
def wrongValue (wanted : Wanted) (t : Text) : Fault :=
  let asFound (r : Except Fault Found) : Fault :=
    match r with
    | .error e => e
    | .ok found => .mismatch ⟨found, wanted⟩
  match t with
  | [] => .unfinished
  | '[' :: _ => .mismatch ⟨.sequence, wanted⟩
  | '{' :: _ => .mismatch ⟨.map, wanted⟩
  | '"' :: t => asFound ((readString t).map fun r => .string r.1)
  | 'n' :: t => asFound ((passWord "ull".toList t).map fun _ => .null)
  | 't' :: t => asFound ((passWord "rue".toList t).map fun _ => .boolean true)
  | 'f' :: t => asFound ((passWord "alse".toList t).map fun _ => .boolean false)
  | c :: t =>
    if c = '-' || Text.isDigit c then asFound ((readNumber (c :: t)).map fun r => r.1.found)
    else .malformed

/-- Reads a rule text from the first character of a value. -/
def readRules : Text → Except Fault (Text × Text)
  | '"' :: t => readString t
  | t => .error (wrongValue .string t)

/-- Reads a member from its opening quote: a field's name, a colon and a rule text. -/
def readMember (t : Text) : Except Fault ((Text × Text) × Text) := do
  let (name, t) ← readString (← pass '"' t)
  let t ← pass ':' (skipBlanks t)
  let (rules, t) ← readRules (skipBlanks t)
  return ((name, rules), t)

theorem length_lt_of_readRules {t s rest : Text} (h : readRules t = .ok (s, rest)) :
    rest.length < t.length := by
  unfold readRules at h
  split at h
  · have := length_lt_of_readString h
    simp only [List.length_cons]
    omega
  · cases h

/-- The reader of a member, one part after the other. -/
theorem readMember_eq (t : Text) :
    readMember t = pass '"' t >>= fun t => readString t >>= fun r =>
      pass ':' (skipBlanks r.2) >>= fun t => readRules (skipBlanks t) >>= fun s =>
        .ok ((r.1, s.1), s.2) := rfl

/-- A member takes at least one character. -/
theorem length_lt_of_readMember {t rest : Text} {m : Text × Text} (h : readMember t = .ok (m, rest)) :
    rest.length < t.length := by
  simp only [readMember_eq, Outcome.bind_eq_ok_iff] at h
  obtain ⟨t₁, hquote, ⟨name, t₂⟩, hname, t₃, hcolon, ⟨rules, t₄⟩, hrules, h⟩ := h
  obtain ⟨-, rfl⟩ := Prod.mk.inj (Except.ok.inj h)
  have h₁ : t.length = t₁.length + 1 := length_eq_of_pass hquote
  have h₂ : t₂.length < t₁.length := length_lt_of_readString hname
  have h₃ : (skipBlanks t₂).length = t₃.length + 1 := length_eq_of_pass hcolon
  have h₄ : t₄.length < (skipBlanks t₃).length := length_lt_of_readRules hrules
  have hblanks₂ : (skipBlanks t₂).length ≤ t₂.length := length_skipBlanks_le t₂
  have hblanks₃ : (skipBlanks t₃).length ≤ t₃.length := length_skipBlanks_le t₃
  show t₄.length < t.length
  omega

/-- Reads members from an opening quote up to and with the closing brace. -/
def readMembers (t : Text) : Except Fault (List (Text × Text) × Text) :=
  match h : readMember t with
  | .error e => .error e
  | .ok (m, rest) =>
    match hb : skipBlanks rest with
    | [] => .error .unfinished
    | '}' :: rest' => .ok ([m], rest')
    | ',' :: rest' =>
      have : (skipBlanks rest').length < t.length := by
        have := length_lt_of_readMember h
        have := congrArg List.length hb ▸ length_skipBlanks_le rest
        have := length_skipBlanks_le rest'
        simp only [List.length_cons] at *
        omega
      (readMembers (skipBlanks rest')).map fun r => (m :: r.1, r.2)
    | _ :: _ => .error .malformed
termination_by t.length

/-- Reads the members of an object from behind its opening brace. -/
def readObject (t : Text) : Except Fault (List (Text × Text) × Text) :=
  match skipBlanks t with
  | '}' :: rest => .ok ([], rest)
  | t => readMembers t

/-- Reads the members of a document that holds one object of strings and nothing else. -/
def readDocument (t : Text) : Except Fault (List (Text × Text)) :=
  match skipBlanks t with
  | '{' :: t => do
    let (members, rest) ← readObject t
    if (skipBlanks rest).isEmpty then return members else throw .malformed
  | t => .error (wrongValue .map t)

/-- Reads a form. -/
def readForm (t : Text) : Except Fault Form := (readDocument t).map OrderedMap.ofList

end FormRules.Json
