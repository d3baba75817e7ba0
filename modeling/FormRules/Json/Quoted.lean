import FormRules.Json.Fault
import FormRules.Outcome

/-!
# Strings in JSON

A text is written between double quotes. Only the quote, the backslash and the characters below
U+0020 are escaped: five of the last have a short form, the others are written `\u00xx`. All other
characters stand for themselves.

Reading takes more: any character may be written as `\u` and four digits, one outside the basic plane
as two such escapes, a leading surrogate directly followed by a trailing one, and the slash may be
escaped too. `readString` reads what stands behind an opening quote up to the closing one;
`length_lt_of_readString` says that it passes at least the latter.
-/

namespace FormRules.Json

open Outcome

/-! ### Writing -/

/-- A character as it is written inside a string. -/
def escaped (c : Char) : Text :=
  if c = '"' then ['\\', '"']
  else if c = '\\' then ['\\', '\\']
  else if c = '\x08' then ['\\', 'b']
  else if c = '\t' then ['\\', 't']
  else if c = '\n' then ['\\', 'n']
  else if c = '\x0c' then ['\\', 'f']
  else if c = '\r' then ['\\', 'r']
  else if c.toNat < 0x20 then
    ['\\', 'u', '0', '0', Text.Hex.digit (c.toNat / 16), Text.Hex.digit (c.toNat % 16)]
  else [c]

/-- The characters of a text as they are written between the quotes of a string. -/
def content (t : Text) : Text := t.flatMap escaped

/-- A text written as a string. -/
def quoted (t : Text) : Text := '"' :: content t ++ ['"']

/-! ### Reading -/

/-- Reads the four digits of an escape. If another character stands among them the text is malformed,
unless fewer than four bytes are left: then it ends too early. -/
def readHex : Text → Except Fault (Nat × Text)
  | a :: b :: c :: d :: t =>
    match Text.Hex.number? [a, b, c, d] with
    | some n => .ok (n, t)
    | none => .error .malformed
  | t => .error (if Text.byteLength t < 4 then .unfinished else .malformed)

/-- Whether a code unit is the first of a pair that stands for one character. -/
def isLeading (n : Nat) : Bool := 0xd800 ≤ n && n ≤ 0xdbff

/-- Whether a code unit is the second of a pair that stands for one character. -/
def isTrailing (n : Nat) : Bool := 0xdc00 ≤ n && n ≤ 0xdfff

/-- Reads what stands behind `\u`: four digits, or two times four for a pair of surrogates. -/
def readUnicode (t : Text) : Except Fault (Char × Text) := do
  let (n, t) ← readHex t
  if isTrailing n then
    throw .malformed
  if isLeading n then
    let t ← pass '\\' t
    let t ← pass 'u' t
    let (m, t) ← readHex t
    if isTrailing m then
      return (Char.ofNat (0x10000 + (n - 0xd800) * 0x400 + (m - 0xdc00)), t)
    throw .malformed
  return (Char.ofNat n, t)

/-- Reads what stands behind a backslash. -/
def readEscape : Text → Except Fault (Char × Text)
  | [] => .error .unfinished
  | '"' :: t => .ok ('"', t)
  | '\\' :: t => .ok ('\\', t)
  | '/' :: t => .ok ('/', t)
  | 'b' :: t => .ok ('\x08', t)
  | 'f' :: t => .ok ('\x0c', t)
  | 'n' :: t => .ok ('\n', t)
  | 'r' :: t => .ok ('\r', t)
  | 't' :: t => .ok ('\t', t)
  | 'u' :: t => readUnicode t
  | _ => .error .malformed

theorem length_lt_of_readHex {t rest : Text} {n : Nat} (h : readHex t = .ok (n, rest)) :
    rest.length < t.length := by
  unfold readHex at h
  split at h
  · split at h
    · cases h
      simp only [List.length_cons]
      omega
    · cases h
  · cases h

/-- The reader behind `\u`, one decision after the other. -/
theorem readUnicode_eq (t : Text) :
    readUnicode t = readHex t >>= fun r =>
      if isTrailing r.1 then .error .malformed
      else if isLeading r.1 then
        pass '\\' r.2 >>= fun t => pass 'u' t >>= fun t => readHex t >>= fun s =>
          if isTrailing s.1 then
            .ok (Char.ofNat (0x10000 + (r.1 - 0xd800) * 0x400 + (s.1 - 0xdc00)), s.2)
          else .error .malformed
      else .ok (Char.ofNat r.1, r.2) := by
  unfold readUnicode
  refine congrArg (readHex t >>= ·) (funext fun r => ?_)
  by_cases ht : isTrailing r.1 = true
  · simp only [ht, if_true]
    rfl
  · by_cases hl : isLeading r.1 = true
    · simp only [ht, hl, if_true, Bool.false_eq_true, if_false]
      rfl
    · simp only [ht, hl, Bool.false_eq_true, if_false]
      rfl

theorem length_lt_of_readUnicode {t rest : Text} {c : Char} (h : readUnicode t = .ok (c, rest)) :
    rest.length < t.length := by
  rw [readUnicode_eq, bind_eq_ok_iff] at h
  obtain ⟨⟨n, t₁⟩, hn, h⟩ := h
  have h₁ : t₁.length < t.length := length_lt_of_readHex hn
  split at h
  · cases h
  · split at h
    · -- a pair of surrogates
      simp only [bind_eq_ok_iff] at h
      obtain ⟨t₂, hbackslash, t₃, hu, ⟨m, t₄⟩, hm, h⟩ := h
      have h₂ : t₁.length = t₂.length + 1 := length_eq_of_pass hbackslash
      have h₃ : t₂.length = t₃.length + 1 := length_eq_of_pass hu
      have h₄ : t₄.length < t₃.length := length_lt_of_readHex hm
      split at h
      · rw [Except.ok.injEq, Prod.mk.injEq] at h
        obtain ⟨-, rfl⟩ := h
        show t₄.length < t.length
        omega
      · cases h
    · cases h
      exact h₁

/-- An escape takes at least one character. -/
theorem length_lt_of_readEscape {t rest : Text} {c : Char} (h : readEscape t = .ok (c, rest)) :
    rest.length < t.length := by
  unfold readEscape at h
  split at h
  case h_10 t =>
    have := length_lt_of_readUnicode h
    simp only [List.length_cons]
    omega
  all_goals cases h <;> simp

/-- Reads what stands behind an opening quote, up to and with the closing quote. -/
def readString (t : Text) : Except Fault (Text × Text) :=
  match t with
  | [] => .error .unfinished
  | '"' :: rest => .ok ([], rest)
  | '\\' :: rest =>
    match h : readEscape rest with
    | .error e => .error e
    | .ok (c, rest') =>
      have := length_lt_of_readEscape h
      (readString rest').map fun r => (c :: r.1, r.2)
  | c :: rest =>
    if c.toNat < 0x20 then .error .malformed else (readString rest).map fun r => (c :: r.1, r.2)
termination_by t.length

/-- A string takes at least its closing quote. -/
theorem length_lt_of_readString {t s rest : Text} (h : readString t = .ok (s, rest)) :
    rest.length < t.length := by
  fun_induction readString t generalizing s with
  | case1 => cases h
  | case2 t =>
    cases h
    simp
  | case3 => cases h
  | case4 t c t' he hlt ih =>
    obtain ⟨⟨s', rest'⟩, hread, heq⟩ := map_eq_ok_iff.mp h
    cases heq
    have hrest : rest'.length < t'.length := ih hread
    simp only [List.length_cons]
    omega
  | case5 => cases h
  | case6 c t _ _ _ ih =>
    obtain ⟨⟨s', rest'⟩, hread, heq⟩ := map_eq_ok_iff.mp h
    cases heq
    have hrest : rest'.length < t.length := ih hread
    simp only [List.length_cons]
    omega

end FormRules.Json
