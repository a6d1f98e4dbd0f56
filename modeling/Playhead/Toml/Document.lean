import Playhead.Toml.Syntax

/-!
# TOML documents

Reading a document takes its statements in order: headers say where the entries that follow them
belong. The main function is `Toml.parse?`, which gives the table that the document comes to.
Readers of documents differ on one point, which is a parameter (`Implied`).
-/

namespace Playhead.Toml

/-- A document that is being read: its entries, and the header that is in force. -/
structure Draft where
  entries : Entries := []
  header : List String := []

namespace Draft

/-- Take one statement into account. -/
def add? (implied : Implied) (d : Draft) : Statement → Option Draft
  | .entry path v =>
    (d.entries.inside (Entries.put implied v path) d.header).map fun entries =>
      { d with entries }
  | .openTable path => (d.entries.openTable path).map fun entries => { entries, header := path }
  | .openItem path => (d.entries.openItem path).map fun entries => { entries, header := path }

end Draft

/-- A byte order mark in front of a document is no part of it. -/
def dropMark : List Char → List Char
  | '\ufeff' :: r => r
  | s => s

/-- The entries of the table that a document comes to, or `none` if it is none. -/
def parse? (implied : Implied) (text : String) : Option (List (String × Value)) := do
  let statements ← statements? (dropMark text.toList) []
  let draft ← statements.foldlM (Draft.add? implied) {}
  return Node.entryValues draft.entries

end Playhead.Toml
