import Transposition.Pool.Basic
import Transposition.Table.Setup

/-!
# Configurations

The size of a table, the number of workers that clear it, and its replacement parameters. Every
setting has a default, and `Config.validate` reports the first one that cannot be used.
-/

namespace Transposition

/-- The settings of a table. -/
structure Config where
  /-- The size of the table in megabytes. -/
  hashMegabytes : UInt64
  /-- The number of workers that clear it. -/
  threads : UInt64
  /-- The tuning of the replacement rules. -/
  replacement : Replacement
  deriving DecidableEq, Repr

/-- Why a configuration cannot be used. -/
inductive ConfigError
  /-- The file could not be read, for a reason given in words. -/
  | unreadable (path reason : String)
  /-- The text is no document, or a setting has a value of the wrong kind. -/
  | unparsable
  /-- The table would have no size. -/
  | noHash (megabytes : UInt64)
  /-- There would be no worker. -/
  | noThreads (threads : UInt64)
  /-- A replacement parameter is out of range. -/
  | replacement (error : RangeError)
  /-- The configuration of a file has an error. -/
  | inFile (path : String) (error : ConfigError)
  deriving DecidableEq, Repr

namespace ConfigError

/-- The wording of an error, from the outermost circumstance to the cause. -/
def chain : ConfigError → List String
  | unreadable path reason => ["failed to read TT config " ++ path, reason]
  | unparsable => ["failed to parse TT config"]
  | noHash megabytes => [s!"hash_mb must be at least 1, got {megabytes}"]
  | noThreads threads => [s!"threads must be at least 1, got {threads}"]
  | replacement error => ["invalid [replacement] section", error.message]
  | inFile path error => ("in " ++ path) :: error.chain

/-- The wording of an error on one line. -/
def message (e : ConfigError) : String := String.intercalate ": " e.chain

/-- The error itself, without the files that it was met in. -/
def cause : ConfigError → ConfigError
  | inFile _ error => error.cause
  | error => error

end ConfigError

namespace Config

/-- The settings of a configuration that gives none. -/
def default (machine : Machine) : Config := ⟨16, machine.processors, Replacement.default⟩

/-- Accepts a configuration that can be used and reports the first setting that cannot. -/
def validate (c : Config) : Except ConfigError Unit :=
  if c.hashMegabytes = 0 then .error (.noHash c.hashMegabytes)
  else if c.threads = 0 then .error (.noThreads c.threads)
  else c.replacement.validate.mapError ConfigError.replacement

/-- Starts the pool that a configuration asks for. -/
def startPool (c : Config) : Pool × Notice := Pool.start c.threads.toNat

/-- Creates the table that a configuration asks for. -/
def createTable (c : Config) (memory : Memory) (crew : Crew) :
    Except SetupError Created :=
  Table.createMegabytes memory crew c.replacement c.hashMegabytes

/-- A configuration passes exactly if table and crew are not empty and the replacement parameters
are in range. -/
theorem validate_eq_ok_iff (c : Config) :
    c.validate = .ok () ↔ c.hashMegabytes ≠ 0 ∧ c.threads ≠ 0 ∧ c.replacement.Valid := by
  rw [← Replacement.validate_eq_ok_iff]
  unfold validate
  by_cases hh : c.hashMegabytes = 0
  · simp [hh]
  · by_cases ht : c.threads = 0
    · simp [hh, ht]
    · simp only [hh, ht, if_false, ne_eq, not_false_eq_true, true_and]
      cases c.replacement.validate with
      | error e => exact iff_of_false (fun h => by cases h) (fun h => by cases h)
      | ok => exact iff_of_true rfl rfl

end Config

end Transposition
