import Transposition.Toml.Value

/-!
# Outlines

An outline is a document of integers: some under keys at its top level, and some under the keys of
tables, each with a header of its own. Its text has a line for each key and each header, in order.
-/

namespace Transposition.Toml

/-- The integers of a document, at its top level and under its headers. -/
structure Outline where
  /-- The keys before the first header, with their integers. -/
  top : Entries Int
  /-- The headers, with the keys under each. -/
  sections : List (String × Entries Int)
  deriving Repr

/-- Integers under keys, as values. -/
def integerEntries (pairs : Entries Int) : Entries Value := pairs.map fun e => (e.1, .integer e.2)

/-- An integer under its key, on a line of its own. -/
def integerLine (e : String × Int) : String := e.1 ++ " = " ++ toString e.2 ++ "\n"

namespace Outline

/-- The document of an outline. -/
def entries (o : Outline) : Entries Value :=
  integerEntries o.top ++ o.sections.map fun s => (s.1, .table (integerEntries s.2))

/-- A header on a line of its own, with an empty line before it and the lines of its keys after it. -/
def sectionText (s : String × Entries Int) : String :=
  "\n[" ++ s.1 ++ "]\n" ++ String.join (s.2.map integerLine)

/-- The text of an outline. -/
def text (o : Outline) : String :=
  String.join (o.top.map integerLine) ++ String.join (o.sections.map sectionText)

/-- The names of an outline need no quotes, and none is given twice in one place. -/
structure WellNamed (o : Outline) : Prop where
  /-- The keys at the top level need no quotes. -/
  bareTop : ∀ e ∈ o.top, IsBareName e.1
  /-- Headers and the keys under them need no quotes. -/
  bareSections : ∀ s ∈ o.sections, IsBareName s.1 ∧ ∀ e ∈ s.2, IsBareName e.1
  /-- At the top level, keys and headers differ. -/
  names : (o.entries.map Prod.fst).Nodup
  /-- Under a header, keys differ. -/
  keys : ∀ s ∈ o.sections, (s.2.map Prod.fst).Nodup

instance (o : Outline) : Decidable o.WellNamed :=
  decidable_of_iff
    ((∀ e ∈ o.top, IsBareName e.1) ∧
      (∀ s ∈ o.sections, IsBareName s.1 ∧ ∀ e ∈ s.2, IsBareName e.1) ∧
      (o.entries.map Prod.fst).Nodup ∧ ∀ s ∈ o.sections, (s.2.map Prod.fst).Nodup)
    ⟨fun h => ⟨h.1, h.2.1, h.2.2.1, h.2.2.2⟩, fun h => ⟨h.bareTop, h.bareSections, h.names, h.keys⟩⟩

/-- The integers of an outline. -/
def integers (o : Outline) : List Int :=
  o.top.map Prod.snd ++ o.sections.flatMap fun s => s.2.map Prod.snd

/-- All integers of an outline fit 64 bits. -/
def Fits (o : Outline) : Prop :=
  ∀ n ∈ o.integers, Int64.minValue.toInt ≤ n ∧ n ≤ Int64.maxValue.toInt

instance (o : Outline) : Decidable o.Fits := inferInstanceAs (Decidable (∀ _ ∈ _, _))

end Outline

end Transposition.Toml
