import ImageRecipe.Toml.Text

/-!
# Tables in TOML

A table is made by its header, by the header of a table inside it, by a key
with points, or written out as a value. How it was made says what may be added
to it later: nothing to a table that is a value, and keys with points only add
to tables that keys with points have made. No name is given twice.
-/
namespace ImageRecipe.Toml

/-- What made a table. -/
inductive Origin where
  /-- A header of its own. -/
  | header
  /-- The header of a table inside it. -/
  | implied
  /-- A key with points. -/
  | dotted
  /-- It was written out as a value. -/
  | written
  deriving DecidableEq, Repr

inductive Item where
  | text (value : String)
  | integer (value : Int)
  | float (value : Float)
  | bool (value : Bool)
  /-- A date, a time or both. -/
  | moment
  | array (items : List Item)
  | table (origin : Origin) (members : List (String × Item))
  /-- Tables that share one header, the last first. -/
  | tables (elements : List (List (String × Item)))

abbrev Members := List (String × Item)

namespace Members

/-- Puts an item in the place of the one with the same name. -/
def replace (members : Members) (name : String) (item : Item) : Members :=
  members.map fun m => if m.1 == name then (name, item) else m

/-- Edits the table at the end of a path, making the tables on the way that are not there yet.
Of tables that share a header the last is meant. A key with points does not lead into a table
with a header of its own. -/
def editAt (byKey : Bool) (edit : Origin → Members → Option Members) :
    List String → Origin → Members → Option Members
  | [], origin, members => edit origin members
  | name :: path, _, members =>
    match members.lookup name with
    | none =>
      let origin : Origin := if byKey then .dotted else .implied
      (editAt byKey edit path origin []).map fun new => members ++ [(name, .table origin new)]
    | some (.table origin inner) =>
      if origin == .written || (byKey && origin == .header) then none
      else
        (editAt byKey edit path origin inner).map fun new =>
          members.replace name (.table origin new)
    | some (.tables (last :: earlier)) =>
      (editAt byKey edit path .header last).map fun new =>
        members.replace name (.tables (new :: earlier))
    | some _ => none

/-- Gives a key its item. The table that a key with points leads to has to be made by such
keys. -/
def define (members : Members) (key : Key) (item : Item) : Option Members :=
  let put (origin : Origin) (inner : Members) : Option Members :=
    if (!key.tables.isEmpty && origin != .dotted) || (inner.lookup key.name).isSome then none
    else some (inner ++ [(key.name, item)])
  editAt true put key.tables .header members

/-- Makes the table of a header. It may be there already, but only for the sake of another
header. -/
def openTable (members : Members) (key : Key) : Option Members :=
  let put (_ : Origin) (inner : Members) : Option Members :=
    match inner.lookup key.name with
    | none => some (inner ++ [(key.name, .table .header [])])
    | some (.table .implied there) => some (inner.replace key.name (.table .header there))
    | some _ => none
  editAt false put key.tables .header members

/-- Makes one more of the tables that share a header. -/
def openElement (members : Members) (key : Key) : Option Members :=
  let put (_ : Origin) (inner : Members) : Option Members :=
    match inner.lookup key.name with
    | none => some (inner ++ [(key.name, .tables [[]])])
    | some (.tables elements) => some (inner.replace key.name (.tables ([] :: elements)))
    | some _ => none
  editAt false put key.tables .header members

end Members

end ImageRecipe.Toml
