import Mathlib.Data.List.Basic
import Transposition.Toml.Document
import Transposition.Toml.Outline

/-!
# Documents of outlines

If no name of an outline is given twice in one place, its lines make a document, with a table for each
header (`Outline.ofLines?_lines`). It gives the integers of the outline (`Outline.entries_nodes`).
-/

namespace Transposition.Toml

namespace Entries

variable {α : Type}

/-- There is no value under a name exactly if it is no key. -/
theorem get?_eq_none_iff {key : String} {entries : Entries α} :
    get? key entries = none ↔ key ∉ entries.map Prod.fst := by
  unfold get?
  rw [List.lookup_eq_none_iff]
  simp only [bne_iff_ne, ne_eq, List.mem_map, not_exists, not_and]
  exact ⟨fun h e he heq => h e he heq.symm, fun h e he heq => h e he heq.symm⟩

/-- Where keys differ, a later one is free among those before it. -/
theorem get?_eq_none_of_nodup {p : String × α} {before after : Entries α}
    (h : ((before ++ p :: after).map Prod.fst).Nodup) : get? p.1 before = none := by
  rw [get?_eq_none_iff]
  rw [List.map_append, List.map_cons, List.nodup_append] at h
  exact fun hmem => h.2.2 p.1 hmem p.1 List.mem_cons_self rfl

/-- A value put under a key that is free comes last. -/
theorem put_eq_append {key : String} {entries : Entries α} (value : α)
    (h : get? key entries = none) : put key value entries = entries ++ [(key, value)] := by
  rw [get?_eq_none_iff] at h
  induction entries with
  | nil => rfl
  | cons e rest ih =>
    rw [List.map_cons, List.mem_cons, not_or] at h
    unfold put
    rw [if_neg (Ne.symm h.1), ih h.2]
    rfl

/-- A value assigned to a key that is free comes last. -/
theorem assign_eq_append {key : String} {entries : Entries Node} (value : Node)
    (h : get? key entries = none) : assign [key] value entries = some (entries ++ [(key, value)]) := by
  have hfree : has key entries = false := by
    unfold has
    rw [h]
    rfl
  unfold assign
  simp [descend, hfree]

end Entries

/-! ## Lines in order -/

/-- The lines that assign keys their values. -/
def assignments (pairs : Entries Node) : List Line := pairs.map fun p => .assign [p.1] p.2

/-- Assignments to keys that are free and differ come last in the open table. -/
theorem foldlM_assignments (pairs : Entries Node) (d : Draft)
    (h : ((d.current ++ pairs).map Prod.fst).Nodup) :
    (assignments pairs).foldlM Draft.take d = some { d with current := d.current ++ pairs } := by
  induction pairs generalizing d with
  | nil => simp [assignments]
  | cons p pairs ih =>
    have hfree := Entries.get?_eq_none_of_nodup h
    have hnext : ((d.current ++ [p] ++ pairs).map Prod.fst).Nodup := by simpa using h
    have htake : d.take (.assign [p.1] p.2) = some { d with current := d.current ++ [p] } := by
      unfold Draft.take
      dsimp only
      rw [Entries.assign_eq_append p.2 hfree]
      rfl
    show (Draft.take d (.assign [p.1] p.2)).bind _ = _
    rw [htake, Option.bind_some]
    have hfold := ih { d with current := d.current ++ [p] } hnext
    rw [List.append_assoc] at hfold
    exact hfold

/-- A header with a name that is free closes the open table and opens an empty one. -/
theorem take_header {d : Draft} {es : Entries Node} {name : String} (hclose : d.close = some es)
    (h : Entries.get? name es = none) :
    d.take (.header [name]) = some ⟨es, [], [name], false⟩ := by
  show d.advance [name] false = _
  unfold Draft.advance
  rw [hclose]
  simp [Entries.descend, Draft.openTable, h]

/-- A table that a header opened takes its place behind the closed tables. -/
theorem close_section {es : Entries Node} (pairs : Entries Node) {name : String}
    (h : Entries.get? name es = none) :
    Draft.close ⟨es, pairs, [name], false⟩ = some (es ++ [(name, .table .header pairs)]) := by
  have hput := Entries.put_eq_append (.table .header pairs) h
  simp [Draft.close, Entries.descend, Draft.settle, h, hput]

/-- Headers with names that are free and differ, and different keys under each, come behind what is
there already. -/
theorem foldlM_sections (sections : List (String × Entries Node)) {d : Draft} {es : Entries Node}
    (hclose : d.close = some es)
    (hnames : ((es ++ sections.map fun s => (s.1, Node.table .header s.2)).map Prod.fst).Nodup)
    (hkeys : ∀ s ∈ sections, (s.2.map Prod.fst).Nodup) :
    ((sections.flatMap fun s => .header [s.1] :: assignments s.2).foldlM Draft.take d).bind
        Draft.close =
      some (es ++ sections.map fun s => (s.1, .table .header s.2)) := by
  -- A header closes the table before it. So the draft matters only by what it is when closed, and
  -- each header takes one that is known when closed to the next such.
  induction sections generalizing d es with
  | nil => simpa using hclose
  | cons s sections ih =>
    have hfree : Entries.get? s.1 es = none := Entries.get?_eq_none_of_nodup hnames
    have hopened := foldlM_assignments s.2 ⟨es, [], [s.1], false⟩ (hkeys s List.mem_cons_self)
    have hclosed := close_section s.2 hfree
    have hrest := ih hclosed (by simpa using hnames)
      fun t ht => hkeys t (List.mem_cons_of_mem s ht)
    rw [List.flatMap_cons, List.foldlM_append, List.foldlM_cons, take_header hclose hfree]
    show (((assignments s.2).foldlM Draft.take ⟨es, [], [s.1], false⟩).bind _).bind _ = _
    rw [hopened, Option.bind_some]
    show ((sections.flatMap _).foldlM Draft.take ⟨es, s.2, [s.1], false⟩).bind _ = _
    rw [hrest, List.append_assoc]
    rfl

/-! ## Outlines -/

/-- Integers under keys, as they are read. -/
def integerNodes (pairs : Entries Int) : Entries Node := pairs.map fun e => (e.1, .integer e.2)

/-- Integers under keys have their keys. -/
theorem map_fst_integerNodes (pairs : Entries Int) :
    (integerNodes pairs).map Prod.fst = pairs.map Prod.fst := by
  simp [integerNodes]

/-- Integers under keys are read as what they are. -/
theorem entries_integerNodes (pairs : Entries Int) :
    Node.entries (integerNodes pairs) = integerEntries pairs := by
  rw [Node.entries_eq_map, integerNodes, List.map_map]
  rfl

namespace Outline

/-- The lines of an outline. -/
def lines (o : Outline) : List Line :=
  assignments (integerNodes o.top) ++
    o.sections.flatMap fun s => .header [s.1] :: assignments (integerNodes s.2)

/-- The document of an outline, as it is read. -/
def nodes (o : Outline) : Entries Node :=
  integerNodes o.top ++ o.sections.map fun s => (s.1, .table .header (integerNodes s.2))

/-- The document of an outline gives its integers. -/
theorem entries_nodes (o : Outline) : Node.entries o.nodes = o.entries := by
  unfold nodes entries
  rw [Node.entries_eq_map, List.map_append, ← Node.entries_eq_map, entries_integerNodes,
    List.map_map]
  congr 1
  refine List.map_congr_left fun s _ => ?_
  show (s.1, Value.table (Node.entries (integerNodes s.2))) = _
  rw [entries_integerNodes]

/-- The lines of an outline are its document, if no name is given twice in one place. -/
theorem ofLines?_lines {o : Outline} (h : o.WellNamed) : ofLines? o.lines = some o.nodes := by
  have hnames := h.names
  rw [← entries_nodes, Node.entries_eq_map, List.map_map] at hnames
  change (o.nodes.map Prod.fst).Nodup at hnames
  unfold nodes at hnames
  have htop : ((integerNodes o.top).map Prod.fst).Nodup := by
    rw [List.map_append, List.nodup_append] at hnames
    exact hnames.1
  let sections : List (String × Entries Node) := o.sections.map fun s => (s.1, integerNodes s.2)
  have hkeys : ∀ s ∈ sections, (s.2.map Prod.fst).Nodup := by
    intro s hs
    obtain ⟨s', hs', rfl⟩ := List.mem_map.mp hs
    rw [map_fst_integerNodes]
    exact h.keys s' hs'
  have hfirst : (assignments (integerNodes o.top)).foldlM Draft.take Draft.empty =
      some ⟨[], integerNodes o.top, [], false⟩ := foldlM_assignments _ Draft.empty htop
  have hsections := @foldlM_sections sections ⟨[], integerNodes o.top, [], false⟩ _ rfl
    (by rw [List.map_map]; exact hnames) hkeys
  rw [List.flatMap_map, List.map_map] at hsections
  unfold ofLines? lines
  rw [List.foldlM_append, hfirst]
  exact hsections

end Outline

end Transposition.Toml
