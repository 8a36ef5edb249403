import Transposition.Proofs.Fields

/-!
# What a write leaves of an entry

`Entry.save` has three outcomes (`Entry.save_cases`), and everything proved about runs of writes
comes from the few facts of this module about them. Whatever the verdict, the entry afterwards is
under the key of the write (`Entry.key_save`), since a write under another key always overwrites. It
is occupied if it was before or if it was overwritten, and in no other case
(`Entry.occupied_save_iff`): an entry that was never overwritten can refuse a write, and then only
its move changes (`Entry.Vacant.save`).
-/

namespace Transposition.Entry

/-! ## The move -/

@[simp]
theorem key_withMove (key : UInt16) (r : Record) (e : Entry) : (e.withMove key r).key = e.key := by
  unfold withMove
  split <;> rfl

@[simp]
theorem depthByte_withMove (key : UInt16) (r : Record) (e : Entry) :
    (e.withMove key r).depthByte = e.depthByte := by
  unfold withMove
  split <;> rfl

@[simp]
theorem stamp_withMove (key : UInt16) (r : Record) (e : Entry) :
    (e.withMove key r).stamp = e.stamp := by
  unfold withMove
  split <;> rfl

@[simp]
theorem value_withMove (key : UInt16) (r : Record) (e : Entry) :
    (e.withMove key r).value = e.value := by
  unfold withMove
  split <;> rfl

@[simp]
theorem eval_withMove (key : UInt16) (r : Record) (e : Entry) :
    (e.withMove key r).eval = e.eval := by
  unfold withMove
  split <;> rfl

/-- The move after a write is the written one, or the old one if none was written under the key that
the entry already had. -/
theorem move_withMove (key : UInt16) (r : Record) (e : Entry) :
    (e.withMove key r).move = r.move ∨
      r.move = Move.none ∧ key = e.key ∧ (e.withMove key r).move = e.move := by
  unfold withMove
  split
  · rename_i h
    rw [Bool.and_eq_true, beq_iff_eq] at h
    exact Or.inr ⟨by simpa [Move.isNone] using h.1, h.2, rfl⟩
  · exact Or.inl rfl

/-! ## Verdicts -/

section Save

variable (p : Replacement) (key : UInt16) (generation : UInt8) (r : Record) (e : Entry)

/-- The entry is overwritten exactly if it yields. -/
theorem verdict_eq_overwrite_iff :
    e.verdict p key generation r = .overwrite ↔ e.Yields p key generation r := by
  unfold verdict
  split_ifs <;> simp_all

/-- What a write does, in full: it overwrites, or it is refused and wears the entry down, or it is
refused and leaves all but the move. -/
theorem save_cases :
    (e.Yields p key generation r ∧ e.verdict p key generation r = .overwrite ∧
        e.save p key generation r = (e.withMove key r).overwrite key generation r) ∨
      (¬e.Yields p key generation r ∧ e.Decays p ∧ e.verdict p key generation r = .decay ∧
        e.save p key generation r = (e.withMove key r).decay) ∨
      (¬e.Yields p key generation r ∧ ¬e.Decays p ∧ e.verdict p key generation r = .keep ∧
        e.save p key generation r = e.withMove key r) := by
  unfold save
  by_cases hy : e.Yields p key generation r
  · have hv := (verdict_eq_overwrite_iff p key generation r e).mpr hy
    exact Or.inl ⟨hy, hv, by rw [hv]⟩
  · by_cases hd : e.Decays p
    · have hv : e.verdict p key generation r = .decay := by rw [verdict, if_neg hy, if_pos hd]
      exact Or.inr (Or.inl ⟨hy, hd, hv, by rw [hv]⟩)
    · have hv : e.verdict p key generation r = .keep := by rw [verdict, if_neg hy, if_neg hd]
      exact Or.inr (Or.inr ⟨hy, hd, hv, by rw [hv]⟩)

variable {p key generation r e}

/-- A refused write is under the key that the entry already has. -/
theorem key_eq_of_not_yields (h : ¬e.Yields p key generation r) : key = e.key := by
  by_contra hne
  exact h (Or.inr (Or.inl hne))

/-- A decay takes one off the byte of the depth and does not empty the entry. -/
theorem toNat_depthByte_decay (h : 1 < e.depthByte.toNat) :
    e.decay.depthByte.toNat + 1 = e.depthByte.toNat := by
  have hle : (1 : UInt8) ≤ e.depthByte := by
    rw [UInt8.le_iff_toNat_le]
    exact Nat.le_of_lt h
  show (e.depthByte - 1).toNat + 1 = e.depthByte.toNat
  rw [UInt8.toNat_sub_of_le _ _ hle]
  exact Nat.sub_add_cancel (Nat.le_of_lt h)

/-- An entry that yields takes all fields from the record, but for the move that it keeps if the record
has none. -/
theorem save_of_yields (h : e.Yields p key generation r) :
    e.save p key generation r = (e.withMove key r).overwrite key generation r := by
  unfold save
  rw [(verdict_eq_overwrite_iff p key generation r e).mpr h]

/-- A refused write changes at most the move and, as a decay, one ply of the depth. -/
theorem save_of_not_yields (hn : ¬e.Yields p key generation r) :
    (e.save p key generation r).key = e.key ∧ (e.save p key generation r).value = e.value ∧
      (e.save p key generation r).eval = e.eval ∧ (e.save p key generation r).stamp = e.stamp ∧
      (e.save p key generation r).depthByte.toNat +
        (if e.verdict p key generation r = .decay then 1 else 0) = e.depthByte.toNat := by
  rcases e.save_cases p key generation r with ⟨hy, -⟩ | ⟨-, hd, hv, hs⟩ | ⟨-, -, hv, hs⟩
  · exact absurd hy hn
  · have hb : 1 < (e.withMove key r).depthByte.toNat := by
      rw [depthByte_withMove]
      exact hd.1
    have hdecay := toNat_depthByte_decay hb
    rw [depthByte_withMove] at hdecay
    rw [hs, hv]
    exact ⟨key_withMove key r e, value_withMove key r e, eval_withMove key r e,
      stamp_withMove key r e, hdecay⟩
  · rw [hs, hv]
    exact ⟨key_withMove key r e, value_withMove key r e, eval_withMove key r e,
      stamp_withMove key r e, congrArg UInt8.toNat (depthByte_withMove key r e)⟩

variable (p key generation r e)

/-- Every write leaves the entry under the written key. -/
theorem key_save : (e.save p key generation r).key = key := by
  by_cases hy : e.Yields p key generation r
  · rw [save_of_yields hy]
    rfl
  · exact (save_of_not_yields hy).1.trans (key_eq_of_not_yields hy).symm

/-- Whatever the verdict, the move is the one that is stored before it. -/
theorem move_save_eq_withMove : (e.save p key generation r).move = (e.withMove key r).move := by
  rcases e.save_cases p key generation r with ⟨-, -, hs⟩ | ⟨-, -, -, hs⟩ | ⟨-, -, -, hs⟩ <;>
    rw [hs] <;> rfl

/-- The move after a write is the written one, or the old one if none was written under the key that
the entry already had. -/
theorem move_save :
    (e.save p key generation r).move = r.move ∨
      r.move = Move.none ∧ key = e.key ∧ (e.save p key generation r).move = e.move := by
  rw [move_save_eq_withMove]
  exact move_withMove key r e

/-! ## Occupancy -/

/-- An entry is occupied exactly if its byte is not zero. -/
theorem occupied_iff : e.occupied = true ↔ e.depthByte.toNat ≠ 0 := by
  unfold occupied
  rw [bne_iff_ne, ne_eq, ← UInt8.toNat_inj]
  rfl

/-- A write leaves an occupied entry exactly if it overwrites or finds one. -/
theorem occupied_save_iff :
    (e.save p key generation r).occupied = true ↔
      e.Yields p key generation r ∨ e.occupied = true := by
  simp only [occupied_iff]
  rcases e.save_cases p key generation r with ⟨hy, -, hs⟩ | ⟨hn, hd, -, hs⟩ | ⟨hn, -, -, hs⟩
  · -- The clamped depth is never stored as zero.
    have hb := Depth.biased_bounds r.depth
    have hw : (e.save p key generation r).depthByte.toNat = r.depth.biased := by
      rw [hs]
      exact Depth.toNat_toByte r.depth
    rw [hw]
    exact ⟨fun _ => Or.inl hy, fun _ => by omega⟩
  · -- Only a byte above one decays, so something remains.
    have hd1 : 1 < (e.withMove key r).depthByte.toNat := by
      rw [depthByte_withMove]
      exact hd.1
    have hw := toNat_depthByte_decay hd1
    rw [depthByte_withMove] at hw hd1
    rw [hs]
    exact ⟨fun _ => Or.inr (by omega), fun _ => by omega⟩
  · rw [hs, depthByte_withMove]
    exact ⟨Or.inr, fun h => h.resolve_left hn⟩

end Save

/-! ## Entries that have never been overwritten -/

/-- All fields are zero, but for the move: what an entry looks like until a write overwrites it. -/
structure Vacant (e : Entry) : Prop where
  /-- The key is zero. -/
  key : e.key = 0
  /-- The byte of the depth is zero, so the entry is unoccupied. -/
  depthByte : e.depthByte = 0
  /-- The generation, node kind and bound are zero. -/
  stamp : e.stamp.byte = 0
  /-- The value is zero. -/
  value : e.value = 0
  /-- The evaluation is zero. -/
  eval : e.eval = 0

/-- The entry of zero bytes is vacant. -/
theorem vacant_empty : empty.Vacant := ⟨rfl, rfl, rfl, rfl, rfl⟩

/-- A write that a vacant entry refuses leaves it vacant. -/
theorem Vacant.save {p : Replacement} {key : UInt16} {generation : UInt8} {r : Record} {e : Entry}
    (h : e.Vacant) (hn : ¬e.Yields p key generation r) : (e.save p key generation r).Vacant := by
  obtain ⟨hkey, hvalue, heval, hstamp, hdepth⟩ := save_of_not_yields hn
  -- The depth can only have gone down, and it was zero.
  refine ⟨hkey.trans h.key, ?_, by rw [hstamp, h.stamp], hvalue.trans h.value,
    heval.trans h.eval⟩
  rw [h.depthByte] at hdepth
  exact UInt8.toNat_inj.mp (Nat.eq_zero_of_add_eq_zero_right hdepth)

/-! ## Checks -/

/-- The records that every check lets through. -/
structure Admissible (r : Record) : Prop where
  /-- The depth can be stored without clamping. -/
  depth : r.depth.Storable
  /-- The value survives being stored. -/
  value : r.value.Fits
  /-- The evaluation survives being stored. -/
  eval : r.eval.Fits

/-- No check stops the write of an admissible record in a generation whose low bits are zero, and
without checks nothing stops any write. -/
theorem faults_eq_none {checks : Checks} {generation : UInt8} {r : Record}
    (h : checks = .off ∨ generation.toNat % 8 = 0 ∧ Admissible r) :
    argumentFault? checks generation r = none ∧ scoreFault? checks r = none := by
  rcases h with rfl | ⟨hg, hr⟩
  · exact ⟨rfl, rfl⟩
  · rw [← lowBits_eq_zero_iff] at hg
    cases checks with
    | off => exact ⟨rfl, rfl⟩
    | on => simp [argumentFault?, scoreFault?, hg, hr.depth, hr.value, hr.eval]

end Transposition.Entry
