/-!
# Stripes

The contiguous part of an array that each of several workers takes care of. All stripes have the
same length but the last, which takes what the division leaves over.
-/

namespace Transposition

/-- A range of array positions. -/
structure Stripe where
  /-- The first position. -/
  start : Nat
  /-- The number of positions. -/
  length : Nat
  deriving DecidableEq, Repr

namespace Stripe

/-- The stripe of one of several workers over an array. -/
def ofWorker (size workers index : Nat) : Stripe :=
  let stride := size / workers
  let start := stride * index
  ⟨start, if index + 1 = workers then size - start else stride⟩

/-- The position after the last. -/
def stop (s : Stripe) : Nat := s.start + s.length

/-- Whether a position belongs to a stripe. -/
def Covers (s : Stripe) (i : Nat) : Prop := s.start ≤ i ∧ i < s.stop

instance (s : Stripe) (i : Nat) : Decidable (s.Covers i) := inferInstanceAs (Decidable (_ ∧ _))

end Stripe

/-- Puts one value into `length` positions of an array, from `start` on; positions beyond the end are
skipped. -/
def fillRange {α : Type} (value : α) (start : Nat) : Nat → Array α → Array α
  | 0, a => a
  | length + 1, a => fillRange value (start + 1) length (a.setIfInBounds start value)

/-- Filling keeps the size of the array. -/
@[simp]
theorem size_fillRange {α : Type} (value : α) (start length : Nat) (a : Array α) :
    (fillRange value start length a).size = a.size := by
  induction length generalizing start a with
  | zero => rfl
  | succ n ih => simp [fillRange, ih]

/-- After filling, the positions of the range hold the value and the others what they held. -/
theorem getElem?_fillRange {α : Type} (value : α) (start length : Nat) (a : Array α) (i : Nat) :
    (fillRange value start length a)[i]? =
      if start ≤ i ∧ i < start + length then a[i]?.map fun _ => value else a[i]? := by
  induction length generalizing start a with
  | zero =>
    rw [if_neg (by omega)]
    rfl
  | succ n ih =>
    rw [fillRange, ih, Array.getElem?_setIfInBounds]
    by_cases hi : start = i
    · subst hi
      by_cases hs : start < a.size <;> simp [hs]
    · have : (start + 1 ≤ i ∧ i < start + 1 + n) ↔ (start ≤ i ∧ i < start + (n + 1)) := by omega
      simp only [if_neg hi, this]

end Transposition
