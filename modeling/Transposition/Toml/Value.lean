import Transposition.Binary64.Basic

/-!
# Values of documents

A document is a table of values under keys, and so are the tables in it. Keys are names, which may be
written without quotes if all their characters allow it.
-/

namespace Transposition.Toml

/-- A value in a document. -/
inductive Value
  /-- A truth value. -/
  | boolean (b : Bool)
  /-- An integer. -/
  | integer (n : Int)
  /-- A floating-point number. -/
  | float (x : Binary64)
  /-- A text. -/
  | text (s : String)
  /-- A date, a time, or both, as it was spelled. -/
  | dateTime (spelling : String)
  /-- A list of values. -/
  | array (items : List Value)
  /-- A table. -/
  | table (entries : List (String × Value))
  deriving Repr, Inhabited

/-- What stands under each key of a table, each key at most once. -/
abbrev Entries (α : Type) := List (String × α)

namespace Entries

variable {α : Type}

/-- The value under a key. -/
def get? (key : String) (entries : Entries α) : Option α := entries.lookup key

/-- Whether there is a value under a key. -/
def has (key : String) (entries : Entries α) : Bool := (get? key entries).isSome

/-- The entries with a value under a key, in the place of the old value or at the end. -/
def put (key : String) (value : α) : Entries α → Entries α
  | [] => [(key, value)]
  | (k, v) :: rest => if k = key then (key, value) :: rest else (k, v) :: put key value rest

/-- The entries without a key. -/
def drop (key : String) (entries : Entries α) : Entries α := entries.filter fun e => e.1 ≠ key

/-- The value put under a key is found there, and the other keys keep theirs. -/
theorem get?_put (key other : String) (value : α) (entries : Entries α) :
    get? other (put key value entries) =
      if other = key then some value else get? other entries := by
  induction entries with
  | nil =>
    simp only [put, get?, List.lookup_cons, List.lookup_nil]
    by_cases h : other = key
    · simp [h]
    · simp [h, beq_false_of_ne h]
  | cons e rest ih =>
    obtain ⟨k, v⟩ := e
    simp only [put, get?] at ih ⊢
    by_cases hk : k = key
    · subst hk
      by_cases h : other = k
      · simp [h]
      · simp [List.lookup_cons, h, beq_false_of_ne h]
    · rw [if_neg hk]
      simp only [List.lookup_cons]
      by_cases h : other = k
      · subst h
        simp [hk]
      · simp [beq_false_of_ne h, ih]

end Entries

/-! ## Names -/

/-- Whether a character may stand in a name without quotes. -/
def isBare (c : Char) : Bool := c.isAlphanum || c == '_' || c == '-'

/-- A name that needs no quotes. -/
structure IsBareName (name : String) : Prop where
  /-- It has a character. -/
  nonempty : name.toList ≠ []
  /-- All its characters may stand in a name without quotes. -/
  bare : ∀ c ∈ name.toList, isBare c = true

/-- Whether a name needs no quotes, by its characters. -/
theorem isBareName_iff {name : String} :
    (name.toList.isEmpty = false ∧ name.toList.all isBare = true) ↔ IsBareName name := by
  rw [List.isEmpty_eq_false_iff, List.all_eq_true]
  exact ⟨fun h => ⟨h.1, h.2⟩, fun h => ⟨h.1, h.2⟩⟩

instance (name : String) : Decidable (IsBareName name) := decidable_of_iff _ isBareName_iff

end Transposition.Toml
