import BehaviorTree.Text.Digits

/-!
# Values of TOML documents

A TOML document is a table.  A table remembers how it came about (`Origin`), because that decides
which later lines may add to it: a header opens a table once, dotted keys add only to tables that
dotted keys made, and a table written in braces is closed.
-/

namespace BehaviorTree.Toml

/-- How a table came about. -/
inductive Origin
  /-- Written in braces. -/
  | inline
  /-- Opened by a header of its own, or the document itself. -/
  | header
  /-- Named in the path of a header. -/
  | implicit
  /-- Named in the path of a dotted key. -/
  | dotted
  deriving DecidableEq

/-- A value. -/
inductive Value
  | string (s : String)
  /-- An integer; nothing if it begins like one but is none, which matters only where it is used. -/
  | integer (n : Option Int)
  /-- A finite number. -/
  | decimal (d : Text.Decimal)
  /-- Infinity or NaN. -/
  | special (d : Binary.Datum)
  | boolean (b : Bool)
  /-- A date, a time, or both. -/
  | datetime (text : String)
  /-- An array written in brackets. -/
  | array (items : List Value)
  /-- An array of tables, each opened by a header of its own, the latest one last. -/
  | tables (earlier : List Value) (last : List (String × Value))
  /-- A table. -/
  | table (origin : Origin) (entries : List (String × Value))

/-- The entries of a table in the order in which they were made. -/
abbrev Entries := List (String × Value)

namespace Entries

/-- The entries with the value of a key replaced. -/
def replace (key : String) (value : Value) : Entries → Entries
  | [] => []
  | (k, v) :: es => if k = key then (k, value) :: es else (k, v) :: replace key value es

/-- Edits the table at the end of a path.  Tables on the way that are missing are made; those that
are there may not be closed, and, on the way of a dotted key, may not have a header of their own.
An array of tables stands for its last one. -/
def editAt (dotted : Bool) (f : Origin → Entries → Option Entries) :
    (path : List String) → Origin → Entries → Option Entries
  | [], origin, es => f origin es
  | key :: path, _, es =>
    match es.lookup key with
    | none =>
      let origin := if dotted then .dotted else .implicit
      (editAt dotted f path origin []).map fun sub => es ++ [(key, .table origin sub)]
    | some (.table .inline _) => none
    | some (.table origin sub) =>
      if dotted && origin == .header then none
      else (editAt dotted f path origin sub).map fun sub => replace key (.table origin sub) es
    | some (.tables earlier last) =>
      (editAt dotted f path .header last).map fun last => replace key (.tables earlier last) es
    | some _ => none

/-- Adds an entry under a path of keys to a table of some origin.  The key must be new; and dotted
keys add to tables made by dotted keys only, while other keys never do. -/
def assign (path : List String) (key : String) (value : Value) (origin : Origin) (es : Entries) :
    Option Entries :=
  let insert (origin : Origin) (es : Entries) : Option Entries :=
    if (origin == .dotted) == path.isEmpty then none
    else if (es.lookup key).isSome then none
    else some (es ++ [(key, value)])
  editAt (!path.isEmpty) insert path origin es

/-- Opens a table by a header: a new one, or one that headers of tables in it have named. -/
def openTable (path : List String) (key : String) (es : Entries) : Option Entries :=
  let insert (_ : Origin) (es : Entries) : Option Entries :=
    match es.lookup key with
    | none => some (es ++ [(key, .table .header [])])
    | some (.table .implicit sub) => some (replace key (.table .header sub) es)
    | some _ => none
  editAt false insert path .header es

/-- Opens a further table of an array of tables by a header. -/
def openNext (path : List String) (key : String) (es : Entries) : Option Entries :=
  let insert (_ : Origin) (es : Entries) : Option Entries :=
    match es.lookup key with
    | none => some (es ++ [(key, .tables [] [])])
    | some (.tables earlier last) =>
      some (replace key (.tables (earlier ++ [.table .header last]) []) es)
    | some _ => none
  editAt false insert path .header es

end Entries

end BehaviorTree.Toml
