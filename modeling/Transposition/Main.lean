import Transposition.Config.Source
import Transposition.Random.Draw
import Transposition.Stress.Report
import Transposition.Toml.Plain

/-!
# The stress program

The command line of a stress run. It reads the configuration file and the environment, makes the run
one round at a time, and prints each row of the table with the time that the round took. What it
prints, but for the times, is what `Stress.report` reports.
-/

namespace Transposition.Stress

/-- The environment variable that chooses the notices to print. -/
def filterVariable : String := "TT_LOG"

/-- The blocks that are asked of the system are smaller than this many bytes. -/
def blockLimit : Nat := 65536 * megabyte

/-- The fault of a path that the system tells by a number, or by its negative. -/
def faultOfCode? (code : UInt32) : Option PathFault :=
  let code := min code (0 - code)
  if code = 2 then some .notFound
  else if code = 5 then some .noInput
  else if code = 6 then some .noDevice
  else if code = 20 then some .notDirectory
  else if code = 21 then some .isDirectory
  else if code = 36 then some .nameTooLong
  else none

/-- The reason, in words, why a file could not be read. -/
def reasonOf (e : IO.Error) : String :=
  let fault? :=
    match e with
    | .noFileOrDirectory _ code _ => faultOfCode? code
    | .inappropriateType _ code _ => faultOfCode? code
    | .invalidArgument _ code _ => faultOfCode? code
    | .hardwareFault code _ => faultOfCode? code
    | .noSuchThing _ code _ => faultOfCode? code
    | _ => none
  match fault? with
  | some fault => fault.message
  | none => toString e

/-- Reads a file. -/
def readFile (path : String) : IO FileRead := do
  try
    return .ok (← IO.FS.readBinFile path)
  catch e =>
    return .error (reasonOf e)

/-- The machine that the program runs on, as far as the system describes it. -/
def thisMachine : IO Machine := do
  let described ←
    try
      IO.FS.lines "/proc/cpuinfo"
    catch _ =>
      pure #[]
  let processors := described.toList.countP fun line => "processor".isPrefixOf line
  return ⟨UInt64.ofNat (max 1 processors)⟩

/-- Prints lines on the error stream. -/
def complain (lines : List String) : IO Unit := lines.forM fun line => IO.eprintln line

/-- Prints a failure and ends with its status. -/
def fail (f : Failure) : IO UInt32 := do
  complain f.messages
  return UInt32.ofNat f.status

/-- Makes the rounds of a run from a number on, and prints their rows and notices. -/
def printRounds (filter : Filter) (number : Nat) : Nat → Run → IO (Except Failure Run)
  | 0, run => return .ok run
  | rounds + 1, run => do
    let start ← IO.monoMsNow
    match run.round Random.Generator.library number with
    | .error f => return .error f
    | .ok (run, row) =>
      let stop ← IO.monoMsNow
      IO.println (row.line ++ "  " ++ Column.right 4 (toString (stop - start)))
      complain (noticeMessages filter (Run.roundNotices row))
      printRounds filter (number + 1) rounds run

/-- Makes a run and prints its report. -/
def perform (filter : Filter) (o : Options) : IO UInt32 := do
  let machine ← thisMachine
  let file ←
    match o.config with
    | some path => readFile path
    | none => pure (.ok ByteArray.empty)
  match Run.configure Toml.plain machine o fun _ => file with
  | .error f => fail f
  | .ok config =>
    let (notices, created) := Run.create Random.Generator.library (Memory.below blockLimit) o config
    complain (noticeMessages filter notices)
    match created with
    | .error f => fail f
    | .ok run =>
      IO.println (heading ++ "  ms")
      match (← printRounds filter 0 o.rounds.toNat run).bind Run.finish with
      | .error f => fail f
      | .ok (_, ended) =>
        complain (noticeMessages filter ended)
        return 0

end Transposition.Stress

open Transposition in
/-- Makes the stress run that the command line asks for. -/
def main (args : List String) : IO UInt32 := do
  let (filter, issues) := Filter.ofText ((← IO.getEnv Stress.filterVariable).getD "")
  Stress.complain (issues.map FilterIssue.message)
  match Stress.Options.ofWords args with
  | .run options => Stress.perform filter options
  | .help =>
    Stress.Options.usage.forM fun line => IO.println line
    return 0
  | .invalid =>
    Stress.complain ["error: invalid arguments", "", "For more information, try '--help'."]
    return 2
