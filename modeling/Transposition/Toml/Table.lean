import Transposition.Toml.Node

/-!
# Adding to tables

A path leads from a table through tables below it, which come into being where there are none. What
stands in the way decides whether the path may be taken: a header may pass through any table but a
written-out one, a dotted key only through tables that no header opened. A list of tables stands for
its last element. No key is assigned twice.
-/

namespace Transposition.Toml

/-- Whether a table came into being as part of a longer path. -/
def Origin.isPassing : Origin → Bool
  | .implied => true
  | .dotted => true
  | .header => false
  | .inline => false

namespace Entries

/-- Follows a path from a table of a given origin and lets `change` work on the table at its end.
`dotted` says whether the path belongs to a dotted key. -/
def descend {α : Type} (dotted : Bool) (change : Origin → Entries Node → Option (α × Entries Node))
    (origin : Origin) (entries : Entries Node) : List String → Option (α × Entries Node)
  | [] => change origin entries
  | key :: path =>
    match get? key entries with
    | none =>
      let fresh : Origin := if dotted then .dotted else .implied
      (descend dotted change fresh [] path).map fun (a, below) =>
        (a, put key (.table fresh below) entries)
    | some (.table own below) =>
      if own = .inline ∨ dotted ∧ !own.isPassing then none
      else
        (descend dotted change own below path).map fun (a, below) =>
          (a, put key (.table own below) entries)
    | some (.tables elements) =>
      match elements.getLast? with
      | none => none
      | some last =>
        (descend dotted change .header last path).map fun (a, last) =>
          (a, put key (.tables (elements.dropLast ++ [last])) entries)
    | some _ => none

/-- Assigns a value to a path below a table. The table that holds it has to be the open one or to
come from dotted keys alone, and the key has to be free. -/
def assign (path : List String) (value : Node) (entries : Entries Node) : Option (Entries Node) :=
  match path.getLast? with
  | none => none
  | some key =>
    let above := path.dropLast
    let insert (origin : Origin) (es : Entries Node) : Option (Unit × Entries Node) :=
      if (origin == .dotted) == above.isEmpty || has key es then none
      else some ((), es ++ [(key, value)])
    (descend true insert .header entries above).map (·.2)

/-- The entries of a written-out table. -/
def ofPairs (pairs : List (List String × Node)) : Option (Entries Node) :=
  pairs.foldlM (fun entries (path, value) => assign path value entries) []

end Entries

end Transposition.Toml
