import Mathlib.Algebra.Group.Int.Defs
import Mathlib.Algebra.Group.Nat.Defs
import Mathlib.Algebra.Order.Ring.Int

/-!
# Machine words

The types of machine integers, each with the range of numbers that it has. `Word.fit?` is the check
behind every operation on them: the operation is done on integers, and its result is a value of the
type in which it is computed, or there is none. Arithmetic that is written with it tells of each
intermediate result which type it has to fit, and gives no result as soon as one does not.
-/

namespace Transposition

/-- A type of machine integers. -/
inductive Word
  /-- The numbers of so many bits, from zero on. -/
  | unsigned (bits : Nat)
  /-- The numbers of so many bits in two's complement. -/
  | signed (bits : Nat)
  deriving DecidableEq, Repr

namespace Word

/-- Bytes. -/
abbrev u8 : Word := .unsigned 8

/-- Unsigned numbers of two bytes. -/
abbrev u16 : Word := .unsigned 16

/-- Unsigned numbers of eight bytes, the counts and sizes. -/
abbrev u64 : Word := .unsigned 64

/-- Signed numbers of four bytes. -/
abbrev i32 : Word := .signed 32

/-- Signed numbers of eight bytes. -/
abbrev i64 : Word := .signed 64

/-- Whether a type has a number. -/
def Has : Word → Int → Prop
  | unsigned bits, n => 0 ≤ n ∧ n < 2^bits
  | signed bits, n => -2^(bits - 1) ≤ n ∧ n < 2^(bits - 1)

instance : (w : Word) → (n : Int) → Decidable (w.Has n)
  | unsigned _, _ => inferInstanceAs (Decidable (_ ∧ _))
  | signed _, _ => inferInstanceAs (Decidable (_ ∧ _))

/-- The value of a type that an operation with a number as its exact result gives, unless the result
leaves the type. -/
def fit? (w : Word) (n : Int) : Option Int := if w.Has n then some n else none

/-- An operation gives its exact result if the type has it. -/
theorem fit?_eq_some {w : Word} {n : Int} (h : w.Has n) : w.fit? n = some n := if_pos h

/-- A type of unsigned numbers has what is between two numbers that it has. -/
theorem Has.of_le {bits : Nat} {n m : Int} (h : (unsigned bits).Has m) (hpos : 0 ≤ n) (hle : n ≤ m) :
    (unsigned bits).Has n :=
  ⟨hpos, Int.lt_of_le_of_lt hle h.2⟩

/-- A sum of bounded numbers can be added up in a type of unsigned numbers that has what the bounds
come to. -/
theorem foldlM_fit? {α : Type} {bits bound : Nat} (f : α → Nat) (l : List α) (start : Nat)
    (hf : ∀ a ∈ l, f a ≤ bound) (h : (unsigned bits).Has ↑(start + l.length * bound)) :
    l.foldlM (fun (total : Int) a => (unsigned bits).fit? (total + f a)) ↑start =
      some ↑(start + (l.map f).sum) := by
  induction l generalizing start with
  | nil => rfl
  | cons a rest ih =>
    have hfirst : f a ≤ bound := hf a List.mem_cons_self
    have hlength : (a :: rest).length * bound = rest.length * bound + bound := by
      rw [List.length_cons, Nat.succ_mul]
    rw [hlength] at h
    have hsum : (unsigned bits).Has ((start : Int) + f a) := h.of_le (by omega) (by omega)
    have hrest := ih (start + f a) (fun b hb => hf b (List.mem_cons_of_mem a hb))
      (h.of_le (by omega) (by omega))
    rw [List.foldlM_cons, fit?_eq_some hsum]
    show rest.foldlM _ ((start : Int) + f a) = _
    rw [← Int.natCast_add, hrest, List.map_cons, List.sum_cons, Nat.add_assoc]

/-- The items of a list that pass a test are as many as the ones that they add up to. -/
theorem sum_map_toNat {α : Type} (test : α → Bool) (l : List α) :
    (l.map fun a => (test a).toNat).sum = l.countP test := by
  induction l with
  | nil => rfl
  | cons a rest ih =>
    rw [List.map_cons, List.sum_cons, ih, List.countP_cons, Nat.add_comm]
    cases test a <;> rfl

end Word

end Transposition
