import Transposition.Config.Basic
import Transposition.Toml.Library

/-!
# Reading and writing configurations

A configuration is a record with three fields, one of which is the record of the replacement parameters.
It is read from a document over the default one and validated; from a file it is read the same way, and
errors tell the file. It is written with every field.
-/

namespace Transposition

/-- What came of reading a file: its bytes, or the reason in words why there are none. -/
abbrev FileRead := Except String ByteArray

namespace Replacement

/-- The fields of the replacement parameters. -/
def fields (toml : Toml.Library) : List (Toml.Field Replacement) :=
  Parameter.all.map fun p => toml.int32.field p.name (fun r => r.get p) (set p)

/-- How replacement parameters stand in documents; those that are not given have their defaults. -/
def codec (toml : Toml.Library) : Toml.Codec Replacement where
  encode r := .table (toml.encodeRecord (fields toml) r)
  decode? := toml.decodeRecord? (fields toml) default

end Replacement

namespace Config

/-- The fields of a configuration. -/
def fields (toml : Toml.Library) : List (Toml.Field Config) :=
  [toml.word.field "hash_mb" (·.hashMegabytes) fun n c => { c with hashMegabytes := n },
    toml.word.field "threads" (·.threads) fun n c => { c with threads := n },
    (Replacement.codec toml).field "replacement" (·.replacement)
      fun r c => { c with replacement := r }]

/-- Reads the settings of a text over the defaults. -/
def ofText? (toml : Toml.Library) (machine : Machine) (text : String) : Option Config :=
  (toml.read text).bind fun entries =>
    toml.decodeRecord? (fields toml) (default machine) (.table entries)

/-- Reads a configuration from a text. -/
def ofText (toml : Toml.Library) (machine : Machine) (text : String) : Except ConfigError Config :=
  match ofText? toml machine text with
  | some c => c.validate.map fun _ => c
  | none => .error .unparsable

/-- Reads a configuration from a file. -/
def ofFile (toml : Toml.Library) (machine : Machine) (path : String) (file : FileRead) :
    Except ConfigError Config :=
  match file with
  | .error reason => .error (.unreadable path reason)
  | .ok bytes =>
    match String.fromUTF8? bytes with
    | none => .error (.unreadable path "stream did not contain valid UTF-8")
    | some text => (ofText toml machine text).mapError (.inFile path)

/-- Writes a configuration. -/
def text? (toml : Toml.Library) (c : Config) : Option String :=
  toml.write (toml.encodeRecord (fields toml) c)

end Config

end Transposition
