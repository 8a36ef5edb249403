import Transposition.Binary64.Text
import Transposition.Config.Text
import Transposition.Random.Library
import Transposition.Stress.Options
import Transposition.Stress.Round

/-!
# Stress runs

A run takes its configuration from a file or from the defaults, lets the command line override parts
of it, creates pool and table, draws the keys that all threads share, makes its rounds, and clears the
table at the end. Each thread draws its trials from a state seeded by the seed of the run, the round and
the number of the thread.
-/

namespace Transposition.Stress

/-- Why a run could not be made. -/
inductive Failure
  /-- The configuration cannot be used. -/
  | config (error : ConfigError)
  /-- There would be no shared key. -/
  | noHotKeys
  /-- The share of shared keys is none. -/
  | hotRatio (ratio : Binary64)
  /-- The table could not be created. -/
  | table (megabytes : UInt64) (error : SetupError)
  /-- The allocator refused that many bytes for the shared keys. -/
  | noMemory (bytes : Nat)
  /-- An operation stopped. -/
  | fault (fault : Fault)
  deriving DecidableEq, Repr

/-- The wording of a failure, from the outermost circumstance to the cause. -/
def Failure.chain : Failure → List String
  | .config error => error.chain
  | .noHotKeys => ["--hot-keys must be at least 1"]
  | .hotRatio ratio => ["--hot-ratio must be within 0.0..=1.0, got " ++ ratio.text]
  | .table megabytes error => [s!"failed to allocate {megabytes}MB table", error.message]
  | .noMemory bytes => [s!"memory allocation of {bytes} bytes failed"]
  | .fault f => [f.message]

/-- Whether a failure has a cause that its wording does not tell: where a text fails to be a
document. -/
def Failure.hasUntoldCause : Failure → Bool
  | .config error => error.cause == .unparsable
  | _ => false

/-- The exit status of a program that a failure ends. -/
def Failure.status : Failure → Nat
  | .noMemory _ => 134
  | .fault _ => 101
  | _ => 1

/-- Whether a program tells its failure itself. It does not tell of a fault, nor of memory that is
refused for a list: these are told as they are met, without circumstances. -/
def Failure.isTold : Failure → Bool
  | .noMemory _ => false
  | .fault _ => false
  | _ => true

/-- A run with its table. -/
structure Run where
  /-- What it was asked for. -/
  options : Options
  /-- Its configuration. -/
  config : Config
  /-- Its table. -/
  table : Table
  /-- The keys that all threads share. -/
  hot : Array UInt64

namespace Run

/-- Accepts a configuration that can be used together with the options. -/
def accept (o : Options) (c : Config) : Except Failure Config :=
  match c.validate with
  | .error e => .error (.config e)
  | .ok () =>
    if o.hotKeys = 0 then .error .noHotKeys
    else if o.hotRatio.InUnitInterval then .ok c
    else .error (.hotRatio o.hotRatio)

/-- The configuration of the file, if one is named, or the default one. -/
def given (toml : Toml.Library) (machine : Machine) (o : Options) (file : String → FileRead) :
    Except Failure Config :=
  match o.config with
  | some path => (Config.ofFile toml machine path (file path)).mapError Failure.config
  | none => .ok (Config.default machine)

/-- The configuration of a run: the one that is given, with what the command line overrides. -/
def configure (toml : Toml.Library) (machine : Machine) (o : Options) (file : String → FileRead) :
    Except Failure Config :=
  (given toml machine o file).bind fun base =>
    accept o
      { base with
        hashMegabytes := o.hash.getD base.hashMegabytes
        threads := o.threads.getD base.threads }

/-- The bytes of a key. -/
def keyBytes : Nat := 8

/-- Draws the keys that all threads share, into a list that has to be had for them. -/
def drawHot (random : Random.Library) (memory : Memory) (seed : UInt64) (count : Nat) :
    Except Failure (Array UInt64) :=
  let bytes := count * keyBytes
  if maxList < bytes then .error (.fault .capacityOverflow)
  else if memory.grants bytes then .ok (random.words count (random.ofSeed seed)).1
  else .error (.noMemory bytes)

/-- Creates the pool and the table of a run, and draws its shared keys: what has been reported until
then, and the run if all of these could be had. -/
def create (random : Random.Library) (memory : Memory) (o : Options) (c : Config) :
    List Notice × Except Failure Run :=
  let (pool, started) := c.startPool
  match c.createTable memory pool.crew with
  | .error e => ([started], .error (.table c.hashMegabytes e))
  | .ok ⟨_, created, some fault⟩ => (started :: created, .error (.fault fault))
  | .ok ⟨t, created, none⟩ =>
    let ready : Notice := .ready c.hashMegabytes t.bucketCount t.largePages t.params
    let hot := drawHot random memory o.seed o.hotKeys.toNat
    (started :: created ++ [ready], hot.map fun hot => ⟨o, c, t, hot⟩)

/-- What a thread draws from in a round, which is counted from zero. -/
def source (random : Random.Library) (seed : UInt64) (round thread : Nat) : random.State :=
  random.ofSeed (seed ^^^ UInt64.ofNat round <<< 32 ^^^ UInt64.ofNat thread)

/-- Makes a round, which is counted from zero. -/
def round (random : Random.Library) (number : Nat) (run : Run) : Except Failure (Run × Row) :=
  let ⟨options, config, table, hot⟩ := run
  let next := Trial.draw random hot (.ofRatio random options.hotRatio)
  let source := source random options.seed number
  let made :=
    Stress.round next source config.threads.toNat options.probes.toNat (number + 1) table
  match made with
  | .ok (table, row) => .ok (⟨options, config, table, hot⟩, row)
  | .error fault => .error (.fault fault)

/-- What is reported of a round besides its row. -/
def roundNotices (row : Row) : List Notice :=
  if row.tally.corrupt = 0 then [] else [.outOfRangeHits row.round row.tally.corrupt]

/-- Clears the table at the end of a run. -/
def finish (run : Run) : Except Failure (Run × List Notice) :=
  let c := run.table.clear (.threads run.config.threads.toNat)
  match c.fault, c.table.hashfull (some anyAge) with
  | none, .ok perMille => .ok ({ run with table := c.table }, c.notices ++ [.emptied perMille])
  | some fault, _ => .error (.fault fault)
  | none, .error fault => .error (.fault fault)

end Run

end Transposition.Stress
