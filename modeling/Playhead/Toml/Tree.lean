import Playhead.Toml.Value

/-!
# Putting tables together

A document defines its tables piece by piece: by headers, by dotted keys and by arrays of tables.
While it is read, each table remembers how it came about, since that decides what may still be
added to it. Every function is `none` when an addition would define something twice.
-/

namespace Playhead.Toml

/-- How a table came about. -/
inductive Origin where
  /-- Only as part of a longer header; its own header may still follow. -/
  | implied
  /-- By a header of its own. -/
  | header
  /-- By a dotted key. -/
  | dotted
  deriving DecidableEq, Repr

/-- A part of a document that is still being read. -/
inductive Node where
  /-- A value written in one piece, to which nothing can be added. -/
  | leaf (value : Value)
  | table (origin : Origin) (entries : List (String × Node))
  /-- An array of tables, of which the last can still grow. -/
  | tables (items : List (List (String × Node)))

/-- The entries of a table that is still being read. -/
abbrev Entries := List (String × Node)

/-- What dotted keys may do with tables that exist only as part of longer headers. -/
inductive Implied where
  /-- They may pass through them, but not add to them. -/
  | passed
  /-- They may add to them and so define them. -/
  | extended
  deriving DecidableEq, Repr

namespace Entries

/-- Replace what is at a key. -/
def alter (key : String) (f : Option Node → Option Node) : Entries → Option Entries
  | [] => (f none).map fun n => [(key, n)]
  | (k, n) :: rest =>
    if k = key then (f (some n)).map fun n => (k, n) :: rest
    else (alter key f rest).map ((k, n) :: ·)

/-- Replace the entries of the last table of an array of tables. -/
def alterLast (f : Entries → Option Entries) : List Entries → Option (List Entries)
  | [] => none
  | [last] => (f last).map ([·])
  | first :: rest => (alterLast f rest).map (first :: ·)

/-- Add a value at a dotted key. The table that gets the value is one that dotted keys define; so
are those on the way, which may besides be the last of an array of tables or, as `implied` says,
tables of longer headers. -/
def put (implied : Implied) (value : Value) : List String → Entries → Option Entries
  | [], _ => none
  | [key], entries =>
    entries.alter key fun
      | none => some (.leaf value)
      | some _ => none
  | key :: rest, entries =>
    entries.alter key fun
      | none => (put implied value rest []).map (.table .dotted)
      | some (.table .dotted inner) => (put implied value rest inner).map (.table .dotted)
      | some (.table .implied inner) =>
        match implied with
        | .passed =>
          if rest.length = 1 then none else (put implied value rest inner).map (.table .implied)
        | .extended => (put implied value rest inner).map (.table .dotted)
      | some (.tables items) =>
        if rest.length = 1 then none else (alterLast (put implied value rest) items).map .tables
      | some _ => none

/-- Open the table that a header names. -/
def openTable : List String → Entries → Option Entries
  | [], _ => none
  | [key], entries =>
    entries.alter key fun
      | none => some (.table .header [])
      | some (.table .implied inner) => some (.table .header inner)
      | some _ => none
  | key :: rest, entries =>
    entries.alter key fun
      | none => (openTable rest []).map (.table .implied)
      | some (.table origin inner) => (openTable rest inner).map (.table origin)
      | some (.tables items) => (alterLast (openTable rest) items).map .tables
      | some (.leaf _) => none

/-- Open a new table at the end of the array of tables that a header names. -/
def openItem : List String → Entries → Option Entries
  | [], _ => none
  | [key], entries =>
    entries.alter key fun
      | none => some (.tables [[]])
      | some (.tables items) => some (.tables (items ++ [[]]))
      | some _ => none
  | key :: rest, entries =>
    entries.alter key fun
      | none => (openItem rest []).map (.table .implied)
      | some (.table origin inner) => (openItem rest inner).map (.table origin)
      | some (.tables items) => (alterLast (openItem rest) items).map .tables
      | some (.leaf _) => none

/-- Work inside the table that was opened last under a header. -/
def inside (f : Entries → Option Entries) : List String → Entries → Option Entries
  | [], entries => f entries
  | key :: rest, entries =>
    entries.alter key fun
      | some (.table origin inner) => (inside f rest inner).map (.table origin)
      | some (.tables items) => (alterLast (inside f rest) items).map .tables
      | _ => none

end Entries

namespace Node

mutual

/-- The value that a finished part comes to. -/
def value : Node → Value
  | leaf v => v
  | table _ entries => .table (entryValues entries)
  | tables items => .array (itemValues items)

/-- The entries of a finished table. -/
def entryValues : List (String × Node) → List (String × Value)
  | [] => []
  | (k, n) :: rest => (k, n.value) :: entryValues rest

/-- The tables of a finished array of tables. -/
def itemValues : List (List (String × Node)) → List Value
  | [] => []
  | entries :: rest => .table (entryValues entries) :: itemValues rest

end

end Node

/-- A table written in one piece, from its keys and values. It has no headers, so nothing in it is
implied by one. -/
def inlineTable? (pairs : List (List String × Value)) : Option Value :=
  (pairs.foldlM (fun entries (path, v) => Entries.put .passed v path entries) []).map
    fun entries => .table (Node.entryValues entries)

end Playhead.Toml
