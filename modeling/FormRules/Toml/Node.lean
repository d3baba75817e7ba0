import FormRules.Mismatch
import FormRules.Number.Layout

/-!
# Values of TOML documents

A document is a table of named nodes. A node is a value in the narrow sense, or a table, or a list of
tables that was written with double brackets. A table carries marks that say how it came about,
because later lines may extend some tables and not others.
-/

namespace FormRules.Toml

/-- A floating point number. -/
inductive Real where
  /-- A finite number with its sign. -/
  | finite (negative : Bool) (x : Binary64)
  /-- An infinity with its sign. -/
  | infinite (negative : Bool)
  /-- Not a number. -/
  | nan
  deriving DecidableEq, Repr

/-- How a table came about. -/
structure Marks where
  /-- Between braces, as a value. -/
  inline : Bool
  /-- As a stop on the way of a key, not by a header or braces of its own. -/
  implicit : Bool
  /-- By the dots of a key in front of a value. -/
  dotted : Bool
  deriving DecidableEq, Repr

/-- What a name in a document can stand for. -/
inductive Node where
  /-- A string. -/
  | string (text : Text)
  /-- An integer. -/
  | integer (n : Int)
  /-- A floating point number. -/
  | real (x : Real)
  /-- A truth value. -/
  | boolean (b : Bool)
  /-- A date, a time or both. -/
  | moment
  /-- A list of values in brackets. -/
  | array (items : List Node)
  /-- A table with its entries in order. -/
  | table (marks : Marks) (entries : List (Text × Node))
  /-- A list of tables, each written under a header in double brackets. -/
  | tables (elements : List (List (Text × Node)))

/-- The entries of a table, in the order of their first mention. -/
abbrev Entries := List (Text × Node)

/-- Doubles are written with all their digits in place, and a tie between two shortest decimals goes
to the greater one. -/
def realLayout : Number.Layout := ⟨fun _ => true, .up⟩

/-- A floating point number as a mismatch shows it. -/
def Real.written : Real → Text
  | finite negative x => realLayout.writeSigned negative x
  | infinite negative => if negative then "-inf".toList else "inf".toList
  | nan => "NaN".toList

/-- A node as a mismatch shows it. Dates and times count as collections of named values. -/
def Node.found : Node → Found
  | string t => .string t
  | integer n => .integer n
  | real x => .floating x.written
  | boolean b => .boolean b
  | array _ | tables _ => .sequence
  | moment | table _ _ => .map

end FormRules.Toml
