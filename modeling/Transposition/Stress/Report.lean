import Transposition.Binary64.Text
import Transposition.Column
import Transposition.Lines
import Transposition.Notice.Filter
import Transposition.Stress.Run

/-!
# Reports of stress runs

A run reports on two channels: a table with a row for each round, and messages. These are the issues
of the filter, the notices that it lets pass, and the failure that ended the run, if one did.
`report` makes a whole run and gives both.
-/

namespace Transposition.Stress

/-- The lines of a run and its exit status. -/
structure Report where
  /-- The exit status. -/
  exit : Nat
  /-- The lines of the table. -/
  rows : List String
  /-- The lines of the messages. -/
  messages : List String
  deriving DecidableEq, Repr

/-- The first line of the table. -/
def heading : String := "round  gen  probes      hit%   corrupt  hashfull  hashfull(all)"

/-- The hits among the probes in per cent, with one decimal place. -/
def hitPercent (hits probes : Nat) : String :=
  let hundredfold := (Binary64.ofNat hits).mul (Binary64.ofNat 100)
  (hundredfold.div (Binary64.ofNat (max 1 probes))).tenths

/-- A row of the table. -/
def Row.line (r : Row) : String :=
  String.intercalate "  "
    [Column.right 5 (toString r.round), Column.right 3 (toString r.generation),
      Column.right 10 (toString r.probes), Column.right 5 (hitPercent r.tally.hits r.probes),
      Column.right 7 (toString r.tally.corrupt), Column.right 8 (toString r.hashfull),
      Column.right 13 (toString r.hashfullAll)]

/-- The message of a failure: what failed, and below it the causes, numbered if there are several. -/
def Failure.messages (f : Failure) : List String :=
  match f.isTold, f.chain with
  | _, [] => []
  | false, told => told
  | true, head :: causes =>
    let numbered := f.hasUntoldCause || 1 < causes.length
    let cause (text : String) (i : Nat) : String :=
      "    " ++ (if numbered then toString i ++ ": " else "") ++ text
    let below := if causes.isEmpty then [] else ["", "Caused by:"]
    ("Error: " ++ head) :: below ++ causes.zipIdx.map fun (text, i) => cause text i

/-- The messages of the notices that pass a filter. -/
def noticeMessages (filter : Filter) (notices : List Notice) : List String :=
  (notices.filter filter.passes).map Notice.line

/-- The report of a run that ended well or failed. -/
def Report.ofOutcome (rows messages : List String) (failure : Option Failure) : Report :=
  match failure with
  | none => ⟨0, rows, Lines.ofTexts messages⟩
  | some f => ⟨f.status, rows, Lines.ofTexts (messages ++ f.messages)⟩

/-- Makes the rounds of a run from a number on, and reports on them. -/
def roundLines (random : Random.Library) (number : Nat) :
    Nat → Run → List String × List Notice × Except Failure Run
  | 0, run => ([], [], .ok run)
  | rounds + 1, run =>
    match run.round random number with
    | .error f => ([], [], .error f)
    | .ok (run, row) =>
      let (rows, notices, outcome) := roundLines random (number + 1) rounds run
      (row.line :: rows, Run.roundNotices row ++ notices, outcome)

/-- Makes a run and reports on it; the messages begin with given ones. -/
def report (toml : Toml.Library) (random : Random.Library) (machine : Machine) (memory : Memory)
    (filter : Filter) (before : List String) (file : String → FileRead) (o : Options) : Report :=
  match Run.configure toml machine o file with
  | .error f => .ofOutcome [] before (some f)
  | .ok config =>
    match Run.create random memory o config with
    | (notices, .error f) => .ofOutcome [] (before ++ noticeMessages filter notices) (some f)
    | (created, .ok run) =>
      let (rows, made, outcome) := roundLines random 0 o.rounds.toNat run
      let rows := heading :: rows
      match outcome.bind Run.finish with
      | .error f => .ofOutcome rows (before ++ noticeMessages filter (created ++ made)) (some f)
      | .ok (_, ended) =>
        .ofOutcome rows (before ++ noticeMessages filter (created ++ made ++ ended)) none

/-- The report on a command line: of the run that it asks for, or the help. There is none if the
command line cannot be understood. -/
def reportOn (toml : Toml.Library) (random : Random.Library) (machine : Machine) (memory : Memory)
    (filter : String) (file : String → FileRead) (words : List String) : Option Report :=
  let (filter, issues) := Filter.ofText filter
  let before := issues.map FilterIssue.message
  match Options.ofWords words with
  | .invalid => none
  | .help => some (.ofOutcome Options.usage before none)
  | .run options => some (report toml random machine memory filter before file options)

end Transposition.Stress
