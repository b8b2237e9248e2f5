import TouchTarget.Numeric.Rounded

/-!
# Values and tables

A point in time is recognised but not interpreted, since nothing that is configured is one. Tables
keep the order in which their keys came.

A document names its tables by headers and by keys with dots, in any order. While it is read, every
table remembers how it came about, because that decides who may add to it:

* a header may complete a table that other headers merely implied, and no other;
* keys with dots may add to tables that came from such keys or were merely implied, but set values
  only in the former;
* a header in double brackets adds an element to a list of tables.

A value that is written in full, also a table in curly brackets, cannot be added to.
-/

namespace TouchTarget.Toml

inductive Value
  | text (value : String)
  | integer (value : Int)
  | float (negative : Bool) (magnitude : Numeric.Rounded Numeric.binary64)
  | boolean (value : Bool)
  | moment
  | array (elements : List Value)
  | table (entries : List (String × Value))
deriving Repr, Inhabited

/-! ## Building tables -/

/-- How a table came about. -/
inductive Origin
  | header
  /-- On the way to a table with a header. -/
  | implied
  /-- On the way to a key with dots. -/
  | dotted
deriving DecidableEq, Repr, Inhabited

/-- What a key holds while the document is read. -/
inductive Node
  | value (value : Value)
  | table (origin : Origin) (entries : List (String × Node))
  | tables (elements : List (List (String × Node)))
deriving Repr, Inhabited

abbrev Entries := List (String × Node)

namespace Node

mutual

/-- The finished value. -/
def finished : Node → Value
  | .value written => written
  | .table _ entries => .table (finishedEntries entries)
  | .tables elements => .array (finishedElements elements)

def finishedEntries : List (String × Node) → List (String × Value)
  | [] => []
  | (key, node) :: rest => (key, node.finished) :: finishedEntries rest

def finishedElements : List (List (String × Node)) → List Value
  | [] => []
  | entries :: rest => .table (finishedEntries entries) :: finishedElements rest

end

end Node

namespace Entries

def replace (entries : Entries) (key : String) (node : Node) : Entries :=
  entries.map fun (present, old) ↦ if present = key then (present, node) else (present, old)

def erase (entries : Entries) (key : String) : Entries :=
  entries.filter (·.1 ≠ key)

/-- A change of the entries of one table, which may look at its origin and may fail. -/
abbrev Change (α : Type) := Origin → Entries → Option (Entries × α)

/-- Makes a change in the table at a path; missing tables are made with the given origin. -/
def changeAt {α : Type} (missing : Origin) (change : Change α) :
    List String → Origin → Entries → Option (Entries × α)
  | [], origin, entries => change origin entries
  | key :: path, _, entries =>
    match entries.lookup key with
    | none => do
      let (inner, result) ← changeAt missing change path missing []
      return (entries ++ [(key, .table missing inner)], result)
    | some (.value _) => none
    | some (.table origin inner) =>
      if missing = .dotted ∧ origin = .header then none
      else do
        let (inner, result) ← changeAt missing change path origin inner
        return (replace entries key (.table origin inner), result)
    | some (.tables elements) => do
      let (inner, result) ← changeAt missing change path .header (← elements.getLast?)
      return (replace entries key (.tables (elements.dropLast ++ [inner])), result)

/-- Sets the value of a key with dots, which must be new. -/
def set (entries : Entries) (path : List String) (key : String) (value : Value) :
    Option Entries := do
  let put : Change Unit := fun origin entries ↦
    if (origin = .dotted) = path.isEmpty ∨ (entries.lookup key).isSome then none
    else some (entries ++ [(key, .value value)], ())
  return (← changeAt .dotted put path .header entries).1

/-- Takes out the table that a header completes, empty if there is none. -/
def openTable (entries : Entries) (path : List String) (key : String) :
    Option (Entries × Entries) :=
  let takeOut : Change Entries := fun _ entries ↦
    match entries.lookup key with
    | none => some (entries, [])
    | some (.table .implied inner) => some (erase entries key, inner)
    | some _ => none
  changeAt .implied takeOut path .header entries

def closeTable (entries : Entries) (path : List String) (key : String) (table : Entries) :
    Option Entries := do
  let put : Change Unit := fun _ entries ↦ some (entries ++ [(key, .table .header table)], ())
  return (← changeAt .implied put path .header entries).1

/-- Makes sure that a key holds a list of tables. -/
def openList (entries : Entries) (path : List String) (key : String) : Option Entries := do
  let put : Change Unit := fun _ entries ↦
    match entries.lookup key with
    | none => some (entries ++ [(key, .tables [])], ())
    | some (.tables _) => some (entries, ())
    | some _ => none
  return (← changeAt .implied put path .header entries).1

/-- Adds an element to a list of tables. -/
def closeElement (entries : Entries) (path : List String) (key : String) (table : Entries) :
    Option Entries := do
  let put : Change Unit := fun _ entries ↦
    match entries.lookup key with
    | some (.tables elements) => some (replace entries key (.tables (elements ++ [table])), ())
    | _ => none
  return (← changeAt .implied put path .header entries).1

end Entries

end TouchTarget.Toml
