import Transposition.Toml.Outline

/-!
# Libraries of documents

Documents are read and written by a library, and so are the values that stand for numbers and for
records in them. How a library does this is up to it. `Library.Spec` states what the programs rely on:
that texts are read as what they denote by the standard of documents, what is written and what cannot
be, and how numbers and records stand in documents. A library reads a record over a default one: a
field with no value in the document keeps that of the default, and a key with no field is passed over.
-/

namespace Transposition.Toml

/-- How the values of a type stand in documents. -/
structure Codec (α : Type) where
  /-- What stands for a value. -/
  encode : α → Value
  /-- The value that something stands for, if it is of the right kind. -/
  decode? : Value → Option α

/-- A field of a record. -/
structure Field (S : Type) where
  /-- The key of the field. -/
  name : String
  /-- What stands for the field of a record. -/
  encode : S → Value
  /-- The record with what stands for the field in place, if that is of the right kind. -/
  set? : Value → S → Option S

/-- A field whose values stand in documents as a codec says. -/
def Codec.field {α S : Type} (codec : Codec α) (name : String) (get : S → α) (set : α → S → S) :
    Field S where
  name
  encode s := codec.encode (get s)
  set? v s := (codec.decode? v).map fun a => set a s

/-- Takes a field from a table, if there is something under its key. -/
def Field.take? {S : Type} (f : Field S) (entries : Entries Value) (s : S) : Option S :=
  match entries.get? f.name with
  | none => some s
  | some v => f.set? v s

/-- A library of documents. -/
structure Library where
  /-- Reads a document. -/
  read : String → Option (Entries Value)
  /-- Writes a document. -/
  write : Entries Value → Option String
  /-- How words stand in documents. -/
  word : Codec UInt64
  /-- How numbers of 32 bits stand in documents. -/
  int32 : Codec Int32
  /-- The table that stands for a record with given fields. -/
  encodeRecord {S : Type} (fields : List (Field S)) (s : S) : Entries Value
  /-- The record with given fields that something stands for, over a default one. -/
  decodeRecord? {S : Type} (fields : List (Field S)) (default : S) (v : Value) : Option S

/-- Values that stand in documents as integers. -/
structure Codec.Integral {α : Type} (codec : Codec α) (toInt : α → Int) : Prop where
  /-- An integer stands for a value. -/
  encode (a : α) : codec.encode a = .integer (toInt a)
  /-- It is read as that value. -/
  decode? (a : α) : codec.decode? (.integer (toInt a)) = some a

/-- What is relied on of a library, where `standard` says which table a text denotes. -/
structure Library.Spec (lib : Library) (standard : String → Entries Value → Prop) : Prop where
  /-- The text of integers under names, at the top level and under headers, denotes them, if they fit
  64 bits. -/
  denotes {o : Outline} (hnamed : o.WellNamed) (hfits : o.Fits) : standard o.text o.entries
  /-- A text is read as the table that it denotes. -/
  reads {text : String} {entries : Entries Value} (h : standard text entries) :
    lib.read text = some entries
  /-- Integers under names are written as a text that denotes them, if they fit 64 bits. -/
  writes {o : Outline} (hnamed : o.WellNamed) (hfits : o.Fits) :
    ∃ text, lib.write o.entries = some text ∧ standard text o.entries
  /-- An integer that does not fit 64 bits cannot be written. -/
  refuses {o : Outline} (hfits : ¬o.Fits) : lib.write o.entries = none
  /-- Words are integers. -/
  word : lib.word.Integral fun w => w.toNat
  /-- Numbers of 32 bits are integers. -/
  int32 : lib.int32.Integral Int32.toInt
  /-- A record is written with each field under its name. -/
  encodeRecord {S : Type} (fields : List (Field S)) (s : S) :
    lib.encodeRecord fields s = fields.map fun f => (f.name, f.encode s)
  /-- A record is read from a table with the fields that have a value there, over the default one. -/
  decodeRecord? {S : Type} {fields : List (Field S)} (default : S) {entries : Entries Value}
    (hnames : (fields.map Field.name).Nodup) (hkeys : (entries.map Prod.fst).Nodup) :
    lib.decodeRecord? fields default (.table entries) =
      fields.foldlM (fun s f => f.take? entries s) default

end Transposition.Toml
