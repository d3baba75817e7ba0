import FormRules.Toml.Value

/-!
# TOML documents

A document is a sequence of statements: a pair of a key and a value, a header in brackets that opens a
table, or a header in double brackets that opens one more element of a list of tables. Pairs belong to
the table that was opened last, at first the outermost one.

`readStatements` reads the statements of a text, and `Draft.run` builds the outermost table from them.
An opened table is kept apart from the rest until the next header closes it; a header for a table that
so far was only a stop on the way of other headers takes that table up again, and it goes to the end
of the table that holds it. A name is given once only.
-/

namespace FormRules.Toml

open OrderedMap (insertEntry)

/-! ### Statements -/

/-- A statement of a document. -/
inductive Statement where
  /-- A key with its value. -/
  | pair (p : Pair)
  /-- A header in brackets. -/
  | header (parts : List Text)
  /-- A header in double brackets. -/
  | listHeader (parts : List Text)

/-- Reads a header from behind its opening brackets, with the rest of its line. -/
def readHeader (double : Bool) (t : Text) : Option (Statement × Text) := do
  let (parts, t) ← readKey t
  let t ← passChar ']' t
  if double then
    return (.listHeader parts, ← passLineEnd (← passChar ']' t))
  return (.header parts, ← passLineEnd t)

/-- Reads a line from its first character that is no blank: a statement, or nothing but a comment or
a line end. -/
def readLine (t : Text) : Option (Option Statement × Text) :=
  match t with
  | '#' :: _ => (passLineEnd t).map fun t => (none, t)
  | '\n' :: _ => (passLineEnd t).map fun t => (none, t)
  | '\r' :: _ => (passLineEnd t).map fun t => (none, t)
  | '[' :: '[' :: t => (readHeader true t).map fun r => (some r.1, r.2)
  | '[' :: t => (readHeader false t).map fun r => (some r.1, r.2)
  | t => do
    let (pair, t) ← readPair (readValue depthBound) t
    return (some (.pair pair), ← passLineEnd t)

/-- Reads the statements of a text. -/
def readStatements (t : Text) : Option (List Statement) :=
  match skipBlanks t with
  | [] => some []
  | t₁ =>
    match readLine t₁ with
    | none => none
    | some (statement, rest) =>
      if rest.length < t.length then (readStatements rest).map (statement.toList ++ ·) else none
termination_by t.length

/-! ### Building the outermost table -/

/-- Where the open table belongs: the parts of its header, and whether that had double brackets. -/
structure Place where
  /-- Whether the open table is an element of a list of tables. -/
  listed : Bool
  /-- The parts of the header before the last. -/
  path : List Text
  /-- The last part of the header. -/
  name : Text

/-- A document under construction. -/
structure Draft where
  /-- The entries of the outermost table, without the open table. -/
  root : Entries
  /-- The entries of the open table. -/
  current : Entries
  /-- Where the open table belongs; none for the outermost table itself. -/
  place : Option Place

namespace Draft

/-- A document without statements. -/
def empty : Draft := ⟨[], [], none⟩

/-- Whether a table was so far only a stop on the way of headers. -/
def isStop (marks : Marks) : Bool := !marks.inline && marks.implicit && !marks.dotted

/-- The entries of a table with the open table put under a name: as one more element of a list, or as
a table in a free place or in that of a mere stop. -/
def put (place : Place) (current es : Entries) : Option Entries :=
  match place.listed, es.lookup place.name with
  | true, none => some (insertEntry place.name (.tables [current]) es)
  | true, some (.tables elements) =>
    some (insertEntry place.name (.tables (elements ++ [current])) es)
  | true, some _ => none
  | false, none => some (insertEntry place.name (.table .explicit current) es)
  | false, some (.table marks _) =>
    if isStop marks then some (insertEntry place.name (.table .explicit current) es) else none
  | false, some _ => none

/-- The entries of the outermost table with the open table put in its place. -/
def close (d : Draft) : Option Entries :=
  match d.place with
  | none => some d.current
  | some place =>
    (descend .byHeader (fun _ es => (put place d.current es).map fun es => ((), es))
      place.path false d.root).map Prod.snd

/-- Takes a mere stop out of the table that holds it: its entries, and those of that table without it.
A free name has no entries to take up; any other table or value is given already. -/
def takeUp (name : Text) (es : Entries) : Option (Entries × Entries) :=
  match es.lookup name with
  | none => some ([], es)
  | some (.table marks inner) =>
    if isStop marks then some (inner, es.filter fun e => e.1 ≠ name) else none
  | some _ => none

/-- Leaves a table as it is if one more element of a list of tables can be put under a name. -/
def checkList (name : Text) (es : Entries) : Option (Entries × Entries) :=
  match es.lookup name with
  | none => some ([], es)
  | some (.tables _) => some ([], es)
  | some _ => none

/-- Closes the open table and opens the one of a header. -/
def openTable (d : Draft) (listed : Bool) (parts : List Text) : Option Draft := do
  let root ← d.close
  let place : Place := ⟨listed, parts.dropLast, parts.getLastD []⟩
  let start := if listed then checkList place.name else takeUp place.name
  let (current, root) ← descend .byHeader (fun _ es => start es) place.path false root
  return ⟨root, current, some place⟩

/-- Carries out a statement. -/
def step (d : Draft) : Statement → Option Draft
  | .pair p => (addPair false p d.current).map fun current => { d with current := current }
  | .header parts => d.openTable false parts
  | .listHeader parts => d.openTable true parts

/-- The outermost table that some statements build. -/
def run (statements : List Statement) : Option Entries :=
  (statements.foldlM step empty).bind close

end Draft

/-- A text without the byte order mark at its front, if there is one. -/
def dropMark : Text → Text
  | '\ufeff' :: t => t
  | t => t

/-- Reads a document as the entries of its outermost table; none if it is malformed. -/
def readDocument (t : Text) : Option Entries := (readStatements (dropMark t)).bind Draft.run

end FormRules.Toml
