import Transposition.Toml.Document
import Transposition.Toml.Library

/-!
# A library of documents

A library (`plain`) that reads every document, and writes those that are outlines. Besides a table, a
list stands for a record, whose fields it gives in their order; further items are passed over. A date
stands for the default record.
-/

namespace Transposition.Toml

/-- An integer that is not negative, as a word. -/
def Value.word? : Value → Option UInt64
  | .integer n => if 0 ≤ n then some (UInt64.ofNat n.toNat) else none
  | _ => none

/-- An integer of 32 bits. -/
def Value.int32? : Value → Option Int32
  | .integer n =>
    if Int32.minValue.toInt ≤ n ∧ n ≤ Int32.maxValue.toInt then some (Int32.ofInt n) else none
  | _ => none

/-- The record that something stands for, over a default one. -/
def Value.record? {S : Type} (fields : List (Field S)) (default : S) : Value → Option S
  | .table entries => fields.foldlM (fun s f => f.take? entries s) default
  | .array items => (fields.zip items).foldlM (fun s (f, v) => f.set? v s) default
  | .dateTime _ => some default
  | _ => none

/-- The integers under keys, if there is nothing else. -/
def integersOf? : Entries Value → Option (Entries Int)
  | [] => some []
  | (name, .integer n) :: rest => (integersOf? rest).map fun pairs => (name, n) :: pairs
  | _ => none

/-- The outline of a document, if it has one. -/
def Outline.ofEntries? : Entries Value → Option Outline
  | [] => some ⟨[], []⟩
  | (name, .integer n) :: rest =>
    (ofEntries? rest).map fun o => { o with top := (name, n) :: o.top }
  | (name, .table below) :: rest => do
    let pairs ← integersOf? below
    let o ← ofEntries? rest
    return { o with sections := (name, pairs) :: o.sections }
  | _ => none

/-- Writes a document that is an outline, if its names need no quotes and its integers fit 64 bits. -/
def write? (entries : Entries Value) : Option String :=
  match Outline.ofEntries? entries with
  | some o => if o.WellNamed ∧ o.Fits then some o.text else none
  | none => none

/-- The library of the readers and writers of this project. -/
def plain : Library where
  read text := (document? text).map Node.entries
  write := write?
  word := ⟨fun w => .integer w.toNat, Value.word?⟩
  int32 := ⟨fun x => .integer x.toInt, Value.int32?⟩
  encodeRecord fields s := fields.map fun f => (f.name, f.encode s)
  decodeRecord? := Value.record?

end Transposition.Toml
