import Transposition.Proofs.Entry
import Transposition.Table.Basic

/-!
# What a write and a look-up do to a bucket

A write reaches the entry and the flag of its own slot and nothing else (`Bucket.entry_save_of_ne`,
`Bucket.flag_save_of_ne`). A look-up has three outcomes (`Bucket.lookup_cases`): the first slot under
the key is occupied, or it is not, or no slot is under the key and the first of those worth least
gives way (`Bucket.victim_cases`).
-/

namespace Transposition

/-- Beyond the word, no flag is set. -/
theorem Flags.get_of_width_le (f : Flags) {i : Nat} (hi : width ≤ i) : f.get i = false := by
  apply Nat.testBit_lt_two_pow
  calc f.word.toNat < 2^16 := f.word.toNat_lt
    _ ≤ 2^i := Nat.pow_le_pow_right (by decide) hi

/-- Setting the flag of a slot leaves every other flag, the spare ones included. -/
theorem Flags.get_set_of_ne (f : Flags) (slot : Slot) {i : Nat} (h : i ≠ slot.val) (flag : Bool) :
    (f.set slot flag).get i = f.get i := by
  have hs : slot.val < width := Nat.lt_trans slot.isLt (by decide)
  -- Beyond the word both sides are clear.
  by_cases hi : i < width
  · rw [get_set f hs hi, if_neg (Ne.symm h)]
  · rw [get_of_width_le _ (Nat.le_of_not_lt hi), get_of_width_le _ (Nat.le_of_not_lt hi)]

/-- The flag of a slot reads as it was set. -/
theorem Flags.get_set_self (f : Flags) (slot : Slot) (flag : Bool) :
    (f.set slot flag).get slot = flag := by
  have hs : slot.val < width := Nat.lt_trans slot.isLt (by decide)
  rw [get_set f hs hs, if_pos rfl]

namespace Bucket

/-! ## The slots of a bucket -/

@[simp]
theorem entry_empty (i : Slot) : empty.entry i = Entry.empty := by
  simp [entry, empty]

@[simp]
theorem entry_setEntry_self (b : Bucket) (slot : Slot) (e : Entry) :
    (b.setEntry slot e).entry slot = e := by
  simp [entry, setEntry]

theorem entry_setEntry_of_ne (b : Bucket) {slot i : Slot} (h : i ≠ slot) (e : Entry) :
    (b.setEntry slot e).entry i = b.entry i := by
  have hne : slot.val ≠ i.val := fun heq => h (Fin.ext heq.symm)
  simp [entry, setEntry, Vector.getElem_set_ne _ _ hne]

@[simp]
theorem entry_setFlag (b : Bucket) (slot i : Slot) (flag : Bool) :
    (b.setFlag slot flag).entry i = b.entry i := rfl

/-! ## Writing -/

section Save

variable (p : Replacement) (key : UInt16) (generation : UInt8) (r : Record) (slot : Slot)
  (b : Bucket)

/-- The written slot holds what the write leaves of its entry. -/
theorem entry_save_self :
    (b.save p key generation r slot).entry slot = (b.entry slot).save p key generation r := by
  unfold save
  split <;> simp

variable {slot} in
/-- A write leaves the entries of the other slots. -/
theorem entry_save_of_ne {i : Slot} (h : i ≠ slot) :
    (b.save p key generation r slot).entry i = b.entry i := by
  unfold save
  split <;> simp [entry_setEntry_of_ne b h]

variable {slot} in
/-- A write leaves all flags but that of its slot. -/
theorem flag_save_of_ne {i : Nat} (h : i ≠ slot.val) :
    (b.save p key generation r slot).flags.get i = b.flags.get i := by
  unfold save
  split
  · exact Flags.get_set_of_ne _ _ h _
  · rfl

variable {p key generation r slot b}

/-- An overwriting write sets the flag of its slot. -/
theorem flag_save_of_yields (h : (b.entry slot).Yields p key generation r) :
    (b.save p key generation r slot).flags.get slot = r.cut := by
  unfold save
  rw [(Entry.verdict_eq_overwrite_iff _ _ _ _ _).mpr h]
  exact Flags.get_set_self _ _ _

/-- A refused write leaves the flags. -/
theorem flags_save_of_not_yields (h : ¬(b.entry slot).Yields p key generation r) :
    (b.save p key generation r slot).flags = b.flags := by
  rw [← Entry.verdict_eq_overwrite_iff] at h
  unfold save
  split
  · contradiction
  · rfl

/-- A write that no check stops leaves the bucket of an unchecked write. -/
theorem bucket_trySave {checks : Checks} (h : (b.trySave checks p key generation r slot).fault = none) :
    (b.trySave checks p key generation r slot).bucket = b.save p key generation r slot := by
  unfold trySave at h ⊢
  -- The first two outcomes carry a fault, the third is the unchecked write.
  split at h
  · cases h
  · split at h
    · cases h
    · rfl

/-- A write whose arguments and scores pass the checks is not stopped. -/
theorem fault_trySave_eq_none {checks : Checks}
    (ha : Entry.argumentFault? checks generation r = none)
    (hs : Entry.scoreFault? checks r = none) :
    (b.trySave checks p key generation r slot).fault = none := by
  unfold trySave
  rw [ha, hs]
  cases (b.entry slot).verdict p key generation r <;> rfl

end Save

/-! ## Searching a key -/

/-- Every slot is searched. -/
theorem mem_slots (i : Slot) : i ∈ slots := by
  revert i
  decide

/-- A search finds nothing exactly if no slot is under the key. -/
theorem find?_eq_none_iff {key : UInt16} {b : Bucket} :
    b.find? key = none ↔ ∀ i, (b.entry i).key ≠ key := by
  unfold find?
  rw [List.find?_eq_none]
  simp [mem_slots]

/-- The slot that a search finds is the first under the key. -/
theorem first_of_find? {key : UInt16} {b : Bucket} {i : Slot} (h : b.find? key = some i) :
    (b.entry i).key = key ∧ ∀ j < i, (b.entry j).key ≠ key := by
  unfold find? at h
  obtain ⟨hi, before, after, hs, hbefore⟩ := List.find?_eq_some_iff_append.mp h
  refine ⟨by simpa using hi, fun j hj => ?_⟩
  -- The slots ascend, so those after `i` are not below it.
  have hsorted : (before ++ i :: after).Pairwise (· < ·) := by
    rw [← hs]
    decide
  have hmem : j ∈ before ++ i :: after := by
    rw [← hs]
    exact mem_slots j
  rcases List.mem_append.mp hmem with hb | ha
  · simpa using hbefore j hb
  · rcases List.mem_cons.mp ha with rfl | ha
    · exact absurd hj (Nat.lt_irrefl _)
    · have hlt := (List.pairwise_cons.mp (List.pairwise_append.mp hsorted).2.1).1 j ha
      exact absurd hj (Nat.lt_asymm hlt)

/-! ## Choosing the entry that gives way -/

/-- The slot that gives way, case by case: ties go to the earlier slot. -/
theorem victim_cases (p : Replacement) (generation : UInt8) (b : Bucket) :
    let worthOf (i : Slot) := worth p generation (b.entry i)
    (b.victim p generation = 0 ∧ worthOf 0 ≤ worthOf 1 ∧ worthOf 0 ≤ worthOf 2) ∨
      (b.victim p generation = 1 ∧ worthOf 1 < worthOf 0 ∧ worthOf 1 ≤ worthOf 2) ∨
      (b.victim p generation = 2 ∧ worthOf 2 < worthOf 0 ∧ worthOf 2 < worthOf 1) := by
  intro worthOf
  -- The fold starts with slot 0 and compares the slots 1 and 2 with the best so far.
  have hv : b.victim p generation =
      if worthOf 2 < worthOf (if worthOf 1 < worthOf 0 then 1 else 0) then 2
      else if worthOf 1 < worthOf 0 then 1 else 0 := by
    simp [victim, slots, worthOf]
  rw [hv]
  split_ifs with h1 h2 h2 <;> simp <;> omega

/-- A bucket has the slots 0, 1 and 2. -/
theorem slot_cases (i : Slot) : i = 0 ∨ i = 1 ∨ i = 2 := by
  revert i
  decide

section Victim

variable (p : Replacement) (generation : UInt8) (b : Bucket)

/-- Every slot before the one that gives way is worth more. -/
theorem worth_victim_lt {i : Slot} (h : i < b.victim p generation) :
    worth p generation (b.entry (b.victim p generation)) < worth p generation (b.entry i) := by
  rcases b.victim_cases p generation with ⟨hv, -⟩ | ⟨hv, h0, -⟩ | ⟨hv, h0, h1⟩
  · rw [hv] at h
    exact absurd h (Nat.not_lt_zero _)
  · rw [hv] at h ⊢
    rcases slot_cases i with rfl | rfl | rfl
    · exact h0
    · exact absurd h (by decide)
    · exact absurd h (by decide)
  · rw [hv] at h ⊢
    rcases slot_cases i with rfl | rfl | rfl
    · exact h0
    · exact h1
    · exact absurd h (by decide)

/-- No slot is worth less than the one that gives way. -/
theorem worth_victim_le (i : Slot) :
    worth p generation (b.entry (b.victim p generation)) ≤ worth p generation (b.entry i) := by
  rcases b.victim_cases p generation with ⟨hv, h1, h2⟩ | ⟨hv, h0, h2⟩ | ⟨hv, h0, h1⟩ <;>
    rw [hv] <;> rcases slot_cases i with rfl | rfl | rfl
  · exact Int.le_refl _
  · exact h1
  · exact h2
  · exact Int.le_of_lt h0
  · exact Int.le_refl _
  · exact h2
  · exact Int.le_of_lt h0
  · exact Int.le_of_lt h1
  · exact Int.le_refl _

end Victim

/-! ## Looking a key up -/

/-- What a look-up finds: the first slot under the key, which is occupied or not, or no slot under
the key. -/
theorem lookup_cases (p : Replacement) (generation : UInt8) (key : UInt16) (b : Bucket) :
    (∃ i, (b.entry i).key = key ∧ (∀ j < i, (b.entry j).key ≠ key) ∧
        (b.entry i).occupied = true ∧ b.lookup p generation key = ⟨true, b.read i, i⟩) ∨
      (∃ i, (b.entry i).key = key ∧ (∀ j < i, (b.entry j).key ≠ key) ∧
        (b.entry i).occupied = false ∧ b.lookup p generation key = ⟨false, Record.absent, i⟩) ∨
      ((∀ i, (b.entry i).key ≠ key) ∧
        b.lookup p generation key = ⟨false, Record.absent, b.victim p generation⟩) := by
  unfold lookup
  cases hf : b.find? key with
  | none => exact Or.inr (Or.inr ⟨find?_eq_none_iff.mp hf, rfl⟩)
  | some i =>
    obtain ⟨hkey, hfirst⟩ := first_of_find? hf
    cases ho : (b.entry i).occupied with
    | true => exact Or.inl ⟨i, hkey, hfirst, ho, by simp [ho]⟩
    | false => exact Or.inr (Or.inl ⟨i, hkey, hfirst, ho, by simp [ho]⟩)

/-- The record that a look-up finds is that of an occupied entry under the key. -/
theorem of_found_lookup {p : Replacement} {generation : UInt8} {key : UInt16} {b : Bucket}
    (hf : (b.lookup p generation key).found = true) :
    (b.entry (b.lookup p generation key).slot).occupied = true ∧
      (b.entry (b.lookup p generation key).slot).key = key ∧
      (b.lookup p generation key).record = b.read (b.lookup p generation key).slot := by
  rcases b.lookup_cases p generation key with
    ⟨i, hkey, -, hi, hl⟩ | ⟨i, -, -, -, hl⟩ | ⟨-, hl⟩
  · rw [hl]
    exact ⟨hi, hkey, rfl⟩
  · rw [hl] at hf
    cases hf
  · rw [hl] at hf
    cases hf

end Bucket

end Transposition
