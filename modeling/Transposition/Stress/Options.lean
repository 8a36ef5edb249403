import Transposition.Binary64.Reader
import Transposition.Column

/-!
# Options of a stress run

The words of a command line are options with values, each at most once: the value is the next word,
or follows an equals sign. A next word that looks like an option is no value.
-/

namespace Transposition.Stress

/-- What a stress run is asked for. -/
structure Options where
  /-- The configuration file. -/
  config : Option String
  /-- The size of the table in megabytes, in place of the configured one. -/
  hash : Option UInt64
  /-- The number of search threads, in place of the configured one. -/
  threads : Option UInt64
  /-- The number of generations. -/
  rounds : UInt32
  /-- The number of probes of each thread in each round. -/
  probes : UInt64
  /-- The number of keys that all threads share. -/
  hotKeys : UInt64
  /-- The share of probes that take one of those keys. -/
  hotRatio : Binary64
  /-- The seed of all random choices. -/
  seed : UInt64
  deriving Repr

/-- What a command line asks for. -/
inductive Invocation
  /-- A run. -/
  | run (options : Options)
  /-- A text about the options. -/
  | help
  /-- Nothing that can be done. -/
  | invalid
  deriving Repr

namespace Options

/-- The options of an empty command line. -/
def default : Options where
  config := none
  hash := none
  threads := none
  rounds := 5
  probes := 200000
  hotKeys := 4096
  hotRatio := Binary64.ofDecimal false 5 (-1)
  seed := 0x5EED

/-- A word of 64 bits. -/
def word64? (text : String) : Option UInt64 :=
  match Decimal.unsigned? text.toList with
  | some n => if n < UInt64.size then some (UInt64.ofNat n) else none
  | none => none

/-- A word of 32 bits, which may be written with a sign. -/
def word32? (text : String) : Option UInt32 :=
  match Decimal.signed? text.toList with
  | some n => if 0 ≤ n ∧ n < UInt32.size then some (UInt32.ofNat n.toNat) else none
  | none => none

/-- Takes an option with its value, if the option exists and the value is one for it. -/
def set? (o : Options) (name value : String) : Option Options :=
  match name with
  | "--config" => if value = "" then none else some { o with config := some value }
  | "--hash" => (word64? value).map fun n => { o with hash := some n }
  | "--threads" => (word64? value).map fun n => { o with threads := some n }
  | "--rounds" => (word32? value).map fun n => { o with rounds := n }
  | "--probes" => (word64? value).map fun n => { o with probes := n }
  | "--hot-keys" => (word64? value).map fun n => { o with hotKeys := n }
  | "--hot-ratio" => (Binary64.ofChars? value.toList).map fun x => { o with hotRatio := x }
  | "--seed" => (word64? value).map fun n => { o with seed := n }
  | _ => none

/-- The options as they are written, each with its meaning. -/
def descriptions : List (String × String) :=
  [("      --config <CONFIG>", "TOML config (hash_mb, threads, [replacement])"),
    ("      --hash <HASH>", "Table size in MB (overrides the config)"),
    ("      --threads <THREADS>", "Search threads (overrides the config)"),
    ("      --rounds <ROUNDS>", "Generations to simulate [default: 5]"),
    ("      --probes <PROBES>", "Probes per thread per round [default: 200000]"),
    ("      --hot-keys <HOT_KEYS>",
      "Size of the key set shared by all threads [default: 4096]"),
    ("      --hot-ratio <HOT_RATIO>",
      "Share of probes that hit the shared key set (0.0 - 1.0) [default: 0.5]"),
    ("      --seed <SEED>", "RNG seed [default: 24301]"),
    ("  -h, --help", "Print help")]

/-- The text about the options, with the meanings in one column. -/
def usage : List String :=
  let width := descriptions.foldl (fun w option => max w option.1.length) 0 + 2
  ["Concurrent probe/write stress test for the transposition table", "",
      "Usage: tt_stress [OPTIONS]", "", "Options:"] ++
    descriptions.map fun (option, meaning) => Column.left width option ++ meaning

/-- Whether a word looks like an option and not like a value. -/
def looksLikeOption (word : String) : Bool := "-".isPrefixOf word && word != "-"

/-- Takes the words of a command line one option after the other; `seen` are the names of those
already taken. -/
def take (seen : List String) (o : Options) : List String → Invocation
  | [] => .run o
  | ["--"] => .run o
  | word :: rest =>
    if word = "--help" ∨ word = "-h" then .help
    else
      match word.splitOn "=" with
      | name :: second :: more =>
        match o.set? name (String.intercalate "=" (second :: more)) with
        | some o => if seen.contains name then .invalid else take (name :: seen) o rest
        | none => .invalid
      | _ =>
        match rest with
        | [] => .invalid
        | value :: rest =>
          if looksLikeOption value || seen.contains word then .invalid
          else
            match o.set? word value with
            | some o => take (word :: seen) o rest
            | none => .invalid

/-- What the words of a command line ask for. -/
def ofWords (words : List String) : Invocation := take [] default words

end Options

end Transposition.Stress
