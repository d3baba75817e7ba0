import FormRules.OrderedMap
import FormRules.Toml.Node

/-!
# Tables of a TOML document under construction

A key leads through tables to the table that it is about. Where a stop is missing, a table is made for
it. A value stands in the way, and so does a table that was written out for itself when a dotted key
in front of a value leads through it. A list of tables is entered at its last element.

`descend` goes the way, applies a change to the table at its end, and hands back what the change
yields beside the changed entries. `addPair` adds a key with its value: the name must be new, and a
dotted key may add only to a table that dotted keys have made.
-/

namespace FormRules.Toml

open OrderedMap (insertEntry)

/-- The marks of tables made on the way of a dotted key in front of a value. -/
def Marks.byDots (inline : Bool) : Marks := ⟨inline, true, true⟩

/-- The marks of tables made on the way of a header. -/
def Marks.byHeader : Marks := ⟨false, true, false⟩

/-- The marks of a table under its own header. -/
def Marks.explicit : Marks := ⟨false, false, false⟩

/-- The marks of a table between braces. -/
def Marks.braced : Marks := ⟨true, false, false⟩

/-- Whether a way that makes tables with the first marks leads through a table with the second. -/
def Marks.admits (way stop : Marks) : Bool :=
  way.inline = stop.inline && (!way.dotted || stop.implicit)

/-- Follows a path from a table, dotted or not, and changes the table at its end; the change is told
whether that one is dotted. -/
def descend {α : Type} (way : Marks) (change : Bool → Entries → Option (α × Entries)) :
    List Text → Bool → Entries → Option (α × Entries)
  | [], dotted, es => change dotted es
  | name :: path, _, es =>
    match es.lookup name with
    | none =>
      (descend way change path way.dotted []).map fun r =>
        (r.1, insertEntry name (.table way r.2) es)
    | some (.table marks inner) =>
      if way.admits marks then
        (descend way change path marks.dotted inner).map fun r =>
          (r.1, insertEntry name (.table marks r.2) es)
      else none
    | some (.tables elements) =>
      match elements.getLast? with
      | none => none
      | some last =>
        (descend way change path false last).map fun r =>
          (r.1, insertEntry name (.tables (elements.dropLast ++ [r.2])) es)
    | some _ => none

/-- A key in front of a value, with the value: the path to a table and the name in it. -/
structure Pair where
  /-- The parts of the key before the last. -/
  path : List Text
  /-- The last part of the key. -/
  name : Text
  /-- The value. -/
  value : Node

/-- The entries of a table, between braces or not, with one more pair. -/
def addPair (inline : Bool) (pair : Pair) (es : Entries) : Option Entries :=
  let change (dotted : Bool) (es : Entries) : Option (Unit × Entries) :=
    if dotted = pair.path.isEmpty then none
    else match es.lookup pair.name with
      | none => some ((), insertEntry pair.name pair.value es)
      | some _ => none
  (descend (.byDots inline) change pair.path false es).map Prod.snd

/-- The table between braces that holds some pairs. -/
def bracedTable (pairs : List Pair) : Option Node :=
  (pairs.foldlM (fun es pair => addPair true pair es) []).map (.table .braced)

end FormRules.Toml
