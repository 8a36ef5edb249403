import Transposition.Pattern.CharSet

/-!
# Patterns

A pattern describes texts: single characters, rows, choices and repetitions of them, and conditions
on the place where they stand. `Pattern.occursIn` tells whether a text has a part that the pattern
describes.

A text of `n` characters has `n + 1` places, before, between and after them. A set of places is a
number whose bit `i` tells whether the place before the character with the index `i` belongs to it,
so that the union of two sets is the bitwise or, and going on by one character is a shift. What a
pattern does is to lead from a set of places to those where the described parts end.
-/

namespace Transposition

/-- The sides of a place on which the characters of words are looked for. -/
inductive WordEdge
  /-- One side has a character of a word, and the other has none. -/
  | boundary
  /-- Both sides have one, or none has. -/
  | inside
  /-- A word begins. -/
  | start
  /-- A word ends. -/
  | stop
  /-- There is no character of a word before. -/
  | startHalf
  /-- There is no character of a word after. -/
  | stopHalf
  deriving DecidableEq, Repr

/-- A condition on a place. -/
inductive Anchor
  /-- The text begins. -/
  | textStart
  /-- The text ends. -/
  | textEnd
  /-- A line begins; carriage returns may count as line ends. -/
  | lineStart (returns : Bool)
  /-- A line ends; carriage returns may count as line ends. -/
  | lineEnd (returns : Bool)
  /-- A condition on words, which are those of all scripts or of the first 128 characters. -/
  | word (edge : WordEdge) (allScripts : Bool)
  deriving DecidableEq, Repr

/-- A description of texts. -/
inductive Pattern
  /-- The empty text. -/
  | empty
  /-- One character of a set. -/
  | char (set : CharSet)
  /-- The empty text, at certain places. -/
  | anchor (a : Anchor)
  /-- One text after the other. -/
  | append (p q : Pattern)
  /-- Either text. -/
  | either (p q : Pattern)
  /-- Texts one after the other, at least so many, and at most so many if there is a limit. -/
  | repeated (p : Pattern) (least : Nat) (most : Option Nat)
  deriving DecidableEq, Repr

/-- Whether a condition on words holds, given whether the characters before and after belong to
words. -/
def WordEdge.holds : WordEdge → Bool → Bool → Bool
  | boundary, before, after => before != after
  | inside, before, after => before == after
  | start, before, after => !before && after
  | stop, before, after => before && !after
  | startHalf, before, _ => !before
  | stopHalf, _, after => !after

/-- Whether a condition holds at a place, given the characters before and after it. Words are those
of the first 128 characters. -/
def Anchor.holds : Anchor → Option Char → Option Char → Bool
  | textStart, before, _ => before.isNone
  | textEnd, _, after => after.isNone
  | lineStart returns, before, after =>
    before.isNone || before == some '\n' ||
      (returns && before == some '\r' && after != some '\n')
  | lineEnd returns, before, after =>
    if returns then
      after.isNone || after == some '\r' || (after == some '\n' && before != some '\r')
    else after.isNone || after == some '\n'
  | word edge _, before, after =>
    edge.holds (before.any CharSet.word.contains) (after.any CharSet.word.contains)

namespace Pattern

/-- The places of a text at which a condition on the characters before and after holds. The
character before the text is given. -/
def placesWhere (holds : Option Char → Option Char → Bool) : Option Char → List Char → Nat
  | before, [] => (holds before none).toNat
  | before, c :: rest =>
    2 * placesWhere holds (some c) rest + (holds before (some c)).toNat

/-- Takes a step so many times, or until no place is left. -/
def times (step : Nat → Nat) : Nat → Nat → Nat
  | 0, places => places
  | n + 1, places => if places = 0 then 0 else times step n (step places)

/-- The places reached by a step taken at most so many times. -/
def within (step : Nat → Nat) : Nat → Nat → Nat
  | 0, places => places
  | n + 1, places =>
    let more := places ||| step places
    if more = places then places else within step n more

/-- The places at which the described parts of a text end that begin at one of the given places.
Of more repetitions than the text has places, one describes the empty text and may be left out or
be doubled, so that no more need be tried. -/
def ends (text : List Char) : Pattern → Nat → Nat
  | empty, places => places
  | char set, places =>
    (places &&& placesWhere (fun _ after => after.any set.contains) none text) <<< 1
  | anchor a, places => places &&& placesWhere a.holds none text
  | append p q, places => ends text q (ends text p places)
  | either p q, places => ends text p places ||| ends text q places
  | repeated p least most, places =>
    let enough := text.length + 1
    let further :=
      match most with
      | some most => min (most - least) enough
      | none => enough
    within (ends text p) further (times (ends text p) (min least enough) places)

/-- Whether a part of a text is described by a pattern. -/
def occursIn (p : Pattern) (text : String) : Bool :=
  p.ends text.toList (1 <<< (text.length + 1) - 1) != 0

/-- A pattern and its repetition, of which none at all is the empty text. -/
def repeating (p : Pattern) (least : Nat) (most : Option Nat) : Pattern :=
  if most = some 0 then empty else repeated p least most

/-- Whether a pattern asks for the words of all scripts. -/
def asksForScripts : Pattern → Bool
  | anchor (.word _ allScripts) => allScripts
  | append p q => p.asksForScripts || q.asksForScripts
  | either p q => p.asksForScripts || q.asksForScripts
  | repeated p _ _ => p.asksForScripts
  | _ => false

/-- The steps of a pattern when its repetitions are written out. -/
def size : Pattern → Nat
  | empty => 0
  | char _ => 1
  | anchor _ => 1
  | append p q => p.size + q.size
  | either p q => p.size + q.size + 1
  | repeated p least none => p.size * max least 1 + 1
  | repeated p least (some most) => p.size * most + (most - least)

end Pattern

end Transposition
