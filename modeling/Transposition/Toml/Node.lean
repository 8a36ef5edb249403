import Transposition.Toml.Value

/-!
# Documents while they are read

While a document is read, each of its tables carries how it came to be, because that decides which
later lines may still add to it. Once it is read, this does not matter any more (`Node.entries`).
-/

namespace Transposition.Toml

/-- How a table came to be. -/
inductive Origin
  /-- Under a header of its own. -/
  | header
  /-- As part of the path of a longer header. -/
  | implied
  /-- As part of a dotted key. -/
  | dotted
  /-- Written out as a value. -/
  | inline
  deriving DecidableEq, Repr

/-- A value in a document that is being read. -/
inductive Node
  /-- A truth value. -/
  | boolean (b : Bool)
  /-- An integer of 64 bits. -/
  | integer (n : Int)
  /-- A floating-point number. -/
  | float (x : Binary64)
  /-- A text. -/
  | text (s : String)
  /-- A date, a time, or both, as it was spelled. -/
  | dateTime (spelling : String)
  /-- A list of values. -/
  | array (items : List Node)
  /-- A table. -/
  | table (origin : Origin) (entries : List (String × Node))
  /-- A list of tables under repeated headers. -/
  | tables (elements : List (List (String × Node)))
  deriving Repr, Inhabited

mutual

/-- The value that has been read. -/
def Node.value : Node → Value
  | .boolean b => .boolean b
  | .integer n => .integer n
  | .float x => .float x
  | .text s => .text s
  | .dateTime spelling => .dateTime spelling
  | .array items => .array (Node.values items)
  | .table _ entries => .table (Node.entries entries)
  | .tables elements => .array (Node.tableValues elements)

/-- The values that have been read. -/
def Node.values : List Node → List Value
  | [] => []
  | n :: rest => n.value :: Node.values rest

/-- The entries with the values that have been read. -/
def Node.entries : List (String × Node) → List (String × Value)
  | [] => []
  | (key, n) :: rest => (key, n.value) :: Node.entries rest

/-- The tables that have been read. -/
def Node.tableValues : List (List (String × Node)) → List Value
  | [] => []
  | entries :: rest => .table (Node.entries entries) :: Node.tableValues rest

end

/-- A table that has been read has the values of its nodes, in their order. -/
theorem Node.entries_eq_map (entries : Entries Node) :
    Node.entries entries = entries.map fun e => (e.1, e.2.value) := by
  induction entries with
  | nil => rfl
  | cons e rest ih =>
    rw [Node.entries, ih]
    rfl

end Transposition.Toml
