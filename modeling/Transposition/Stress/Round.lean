import Transposition.Stress.Trial
import Transposition.Table.Basic

/-!
# Rounds

A round of a stress run is one generation of the table: a new search, then the trials of every
thread. The trials come from a source, a state and a function that draws the next one, so that
nothing here depends on how they are drawn. Threads take turns, one after the other.
-/

namespace Transposition.Stress

/-- What the probes of a round found. -/
structure Tally where
  /-- The probes that found a record. -/
  hits : Nat
  /-- The records found that no trial can have written. -/
  corrupt : Nat
  deriving DecidableEq, Repr

namespace Tally

/-- The tally of no probe. -/
def zero : Tally := ⟨0, 0⟩

/-- Counts a probe. -/
def count (p : Probe) (tally : Tally) : Tally :=
  if p.found then
    ⟨tally.hits + 1, if Plausible p.record then tally.corrupt else tally.corrupt + 1⟩
  else tally

end Tally

/-- Probes the key of a trial and writes its record through the writer of the probe. -/
def attempt (generation : UInt8) (trial : Trial) (t : Table) (tally : Tally) :
    Except Fault (Table × Tally) :=
  match t.prefetch trial.key, t.probe trial.key with
  | .error fault, _ => .error fault
  | _, .error fault => .error fault
  | .ok (), .ok p =>
    match t.write .off p.writer trial.key generation trial.record with
    | (_, some fault) => .error fault
    | (t, none) => .ok (t, tally.count p)

/-- Makes a number of trials from a source. -/
def trials {σ : Type} (next : σ → Trial × σ) (generation : UInt8) :
    Nat → σ → Table → Tally → Except Fault (Table × Tally)
  | 0, _, t, tally => .ok (t, tally)
  | n + 1, s, t, tally =>
    let (trial, s) := next s
    match attempt generation trial t tally with
    | .error fault => .error fault
    | .ok (t, tally) => trials next generation n s t tally

/-- The trials of the threads from a first one on, each with a source of its own. -/
def threadTrials {σ : Type} (next : σ → Trial × σ) (source : Nat → σ) (generation : UInt8)
    (probes : Nat) (thread : Nat) : Nat → Table → Tally → Except Fault (Table × Tally)
  | 0, t, tally => .ok (t, tally)
  | threads + 1, t, tally =>
    match trials next generation probes (source thread) t tally with
    | .error fault => .error fault
    | .ok (t, tally) =>
      threadTrials next source generation probes (thread + 1) threads t tally

/-- What is reported of a round. -/
structure Row where
  /-- The number of the round, from 1. -/
  round : Nat
  /-- The generation of the round. -/
  generation : UInt8
  /-- The probes of all threads. -/
  probes : Nat
  /-- What they found. -/
  tally : Tally
  /-- The occupancy by entries of the round, per thousand. -/
  hashfull : Nat
  /-- The occupancy by entries of any round, per thousand. -/
  hashfullAll : Nat
  deriving DecidableEq, Repr

/-- The limit on the age under which every entry counts. -/
def anyAge : UInt8 := 31

/-- Makes a round: the table after it, and what is reported of it. -/
def round {σ : Type} (next : σ → Trial × σ) (source : Nat → σ) (threads probes : Nat)
    (number : Nat) (t : Table) : Except Fault (Table × Row) := do
  let t := t.newSearch
  let generation := t.generation
  let (t, tally) ← threadTrials next source generation probes 0 threads t Tally.zero
  let hashfull ← t.hashfull none
  let hashfullAll ← t.hashfull (some anyAge)
  let row : Row :=
    { round := number
      generation := generation
      probes := threads * probes
      tally := tally
      hashfull := hashfull
      hashfullAll := hashfullAll }
  return (t, row)

end Transposition.Stress
