import Transposition.Random.Library
import Transposition.Record

/-!
# Trials

A trial is one probe of a stress run and the write that follows it: a key, which is often one of a
few shared keys, and a record within narrow ranges.
-/

namespace Transposition.Stress

/-- A probe and the write that follows it. -/
structure Trial where
  /-- The key that is probed and written. -/
  key : UInt64
  /-- The record that is written. -/
  record : Record
  deriving Repr

/-- The largest size of a score that a trial writes. -/
def scoreLimit : Int := 1000

namespace Trial

variable (random : Random.Library)

/-- The chances of the events of a trial. -/
structure Chances where
  /-- That the key is a shared one. -/
  hot : random.Chance
  /-- That the record is that of a principal-variation node. -/
  pv : random.Chance
  /-- That the auxiliary flag of the record is set. -/
  cut : random.Chance

/-- The chances of a trial that takes a shared key with a given probability. -/
def Chances.ofRatio (hotRatio : Binary64) : Chances random where
  hot := random.chance hotRatio
  pv := random.chance (Binary64.ofRatio false 1 10)
  cut := random.chance (Binary64.ofRatio false 3 10)

/-- The key of a trial: one of the shared keys, or any. -/
def drawKey (hot : Array UInt64) (hotChance : random.Chance) (s : random.State) :
    UInt64 × random.State :=
  let (isHot, s) := random.event hotChance s
  if isHot then
    let (i, s) := random.below hot.size s
    (hot[i]?.getD 0, s)
  else random.word s

/-- A bound that is not `Bound.none`. -/
def drawBound (s : random.State) : Bound × random.State :=
  let (i, s) := random.integer 0 2 s
  (if i = 0 then .upper else if i = 1 then .lower else .exact, s)

/-- A score within the limit. -/
def drawScore (s : random.State) : Score × random.State :=
  let (raw, s) := random.integer (-1000) 1000 s
  (⟨raw⟩, s)

/-- Draws a trial. -/
def draw (hot : Array UInt64) (chances : Chances random) (s : random.State) :
    Trial × random.State :=
  let (key, s) := drawKey random hot chances.hot s
  let (depth, s) := random.integer 0 39 s
  let (bound, s) := drawBound random s
  let (value, s) := drawScore random s
  let (pv, s) := random.event chances.pv s
  let (code, s) := random.shortWord s
  let (eval, s) := drawScore random s
  let (cut, s) := random.event chances.cut s
  (⟨key, { move := ⟨code⟩, value, eval, depth, bound, pv, cut }⟩, s)

end Trial

/-- Whether a record can be what some trial wrote, worn down by refused writes. -/
def Plausible (r : Record) : Prop :=
  r.depth.Storable ∧ r.bound ≠ .none ∧ -scoreLimit ≤ r.value.raw.toInt ∧
    r.value.raw.toInt ≤ scoreLimit

instance (r : Record) : Decidable (Plausible r) := inferInstanceAs (Decidable (_ ∧ _ ∧ _ ∧ _))

end Transposition.Stress
