import Transposition.Notice
import Transposition.Pattern.Reader
import Transposition.Space

/-!
# Choosing notices

A filter is a list of rules, each for the notices of some origin or of all, and possibly a pattern
that the wording has to fit. Of the rules that apply to an origin, the one that names most of it
decides which levels pass; without any rule only errors pass.

A filter is written as its rules with commas between them, and the pattern after a slash. What
cannot be read is left out, and told.
-/

namespace Transposition

/-- A rule about the notices whose origin begins with a text. -/
structure FilterRule where
  /-- The beginning of the origin; the rule is about all notices if none is named. -/
  origin : Option String
  /-- The least severe level that passes; none passes if there is none. -/
  level : Option Level
  deriving DecidableEq, Repr

/-- What chooses notices. -/
structure Filter where
  /-- The rules, at most one for an origin. -/
  rules : List FilterRule
  /-- The pattern that occurs in the wording. -/
  pattern : Option Pattern
  deriving DecidableEq, Repr

/-- Why a part of a written filter is left out. -/
inductive FilterIssue
  /-- There is more than one slash, so nothing is read. -/
  | manySlashes (text : String)
  /-- A text is no rule, or no level. -/
  | rule (text : String)
  /-- The text after the slash is no pattern. -/
  | pattern (refusal : Pattern.Refusal)
  deriving DecidableEq, Repr

/-- The wording of an issue. -/
def FilterIssue.message (i : FilterIssue) : String :=
  let what :=
    match i with
    | manySlashes text => s!"invalid logging spec '{text}' (too many '/'s)"
    | rule text => s!"invalid logging spec '{text}'"
    | pattern refusal => "invalid regex filter - " ++ refusal.message
  "warning: " ++ what ++ ", ignoring it"

namespace Filter

/-- The level that a word names, in any case of letters; the word for "no level" names none. -/
def level? (word : String) : Option (Option Level) :=
  let upper := String.ofList (word.toList.map Char.toUpper)
  if upper = "OFF" then some none else (Level.all.find? fun l => l.name = upper).map some

/-- The rule of one specification: a level, an origin, or an origin and a level. -/
def readRule (spec : String) : Except FilterIssue FilterRule :=
  match spec.splitOn "=" with
  | [word] =>
    match level? word with
    | some level => .ok ⟨none, level⟩
    | none => .ok ⟨some word, some .trace⟩
  | [origin, word] =>
    let word := trimSpace word
    if word = "" then .ok ⟨some origin, some .trace⟩
    else
      match level? word with
      | some level => .ok ⟨some origin, level⟩
      | none => .error (.rule word)
  | _ => .error (.rule spec)

/-- Adds a rule. It takes the place of the one for the same origin, if there is one. -/
def insert (new : FilterRule) : List FilterRule → List FilterRule
  | [] => [new]
  | old :: others => if old.origin = new.origin then new :: others else old :: insert new others

/-- The rules of specifications with commas between them, and the issues of those that are none. -/
def readRules (text : String) : List FilterRule × List FilterIssue :=
  let specs := ((text.splitOn ",").map trimSpace).filter (· ≠ "")
  let add (read : List FilterRule × List FilterIssue) (spec : String) :=
    match readRule spec with
    | .ok new => (insert new read.1, read.2)
    | .error issue => (read.1, read.2 ++ [issue])
  specs.foldl add ([], [])

/-- The filter that lets only errors pass. -/
def errors : Filter := ⟨[⟨none, some .error⟩], none⟩

/-- Reads a filter, with the issues that its text has. -/
def ofText (text : String) : Filter × List FilterIssue :=
  let ofRules (text : String) : Filter × List FilterIssue :=
    match readRules text with
    | ([], issues) => (errors, issues)
    | (read, issues) => (⟨read, none⟩, issues)
  match text.splitOn "/" with
  | [specs] => ofRules specs
  | [specs, wording] =>
    let (filter, issues) := ofRules specs
    match Pattern.ofText wording with
    | .ok p => ({ filter with pattern := some p }, issues)
    | .error refusal => (filter, issues ++ [.pattern refusal])
  | _ => (errors, [.manySlashes text])

/-- How much of an origin a rule names. -/
def reach (rule : FilterRule) : Nat := (rule.origin.getD "").utf8ByteSize

/-- The level of the rule that names most of an origin; of several such rules, the last one. -/
def levelFor (f : Filter) (origin : String) : Option Level :=
  let applying := f.rules.filter fun rule => (rule.origin.getD "").isPrefixOf origin
  let best? := applying.foldl
    (fun best? rule =>
      match best? with
      | some (best : FilterRule) => if reach best ≤ reach rule then some rule else some best
      | none => some rule)
    none
  best?.bind FilterRule.level

/-- Whether a notice passes. -/
def passes (f : Filter) (n : Notice) : Bool :=
  match f.levelFor n.origin with
  | some level => decide (n.level.rank ≤ level.rank) && f.pattern.all fun p => p.occursIn n.text
  | none => false

end Filter

end Transposition
