import Transposition.Toml.Line

/-!
# From lines to a document

The lines of a document are taken in order. Assignments go to the table that the last header opened;
the table takes its place in the document when the next header, or the end, closes it. A header may
open a table that longer headers have passed through, and no other that exists.
-/

namespace Transposition.Toml

/-- A document as far as its lines have been taken. -/
structure Draft where
  /-- The closed tables. -/
  root : Entries Node
  /-- The open table. -/
  current : Entries Node
  /-- The path of the open table; the top level has none. -/
  path : List String
  /-- Whether the open table is an element of a list. -/
  element : Bool
  deriving Repr

namespace Draft

/-- The draft of no lines. -/
def empty : Draft := ⟨[], [], [], false⟩

/-- Puts the open table under its key. -/
def settle (d : Draft) (key : String) (es : Entries Node) : Option (Unit × Entries Node) :=
  if d.element then
    match Entries.get? key es with
    | none => some ((), Entries.put key (.tables [d.current]) es)
    | some (.tables elements) =>
      some ((), Entries.put key (.tables (elements ++ [d.current])) es)
    | some _ => none
  else
    match Entries.get? key es with
    | none => some ((), Entries.put key (.table .header d.current) es)
    | some _ => none

/-- The document with the open table closed. -/
def close (d : Draft) : Option (Entries Node) :=
  match d.path.getLast? with
  | none => some d.current
  | some key =>
    (Entries.descend false (fun _ es => d.settle key es) .header d.root d.path.dropLast).map (·.2)

/-- Looks up the table that a header opens, and takes it out of its place: its entries so far. -/
def openTable (key : String) (es : Entries Node) : Option (Entries Node × Entries Node) :=
  match Entries.get? key es with
  | none => some ([], es)
  | some (.table .implied below) => some (below, Entries.drop key es)
  | some _ => none

/-- Makes sure that there is a list for the element that a header adds. -/
def openList (key : String) (es : Entries Node) : Option (Entries Node × Entries Node) :=
  match Entries.get? key es with
  | none => some ([], Entries.put key (.tables []) es)
  | some (.tables _) => some ([], es)
  | some _ => none

/-- Closes the open table and opens the one of a header. -/
def advance (d : Draft) (path : List String) (element : Bool) : Option Draft :=
  match d.close, path.getLast? with
  | some root, some key =>
    let start (es : Entries Node) := if element then openList key es else openTable key es
    (Entries.descend false (fun _ es => start es) .header root path.dropLast).map
      fun (current, root) => ⟨root, current, path, element⟩
  | _, _ => none

/-- Takes a line. -/
def take (d : Draft) : Line → Option Draft
  | .header path => d.advance path false
  | .element path => d.advance path true
  | .assign path value =>
    (Entries.assign path value d.current).map fun current => { d with current }

end Draft

/-- The document of a list of lines. -/
def ofLines? (lines : List Line) : Option (Entries Node) :=
  (lines.foldlM Draft.take Draft.empty).bind Draft.close

/-- Reads a document. -/
def document? (text : String) : Option (Entries Node) := (linesOf? text).bind ofLines?

end Transposition.Toml
