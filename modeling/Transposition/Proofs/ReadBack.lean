import Transposition.Proofs.Checking

/-!
# What a write reads back as

A write that overwrites stores seven fields in six places, and `Bucket.read_save_of_yields` says what
they read back as: bound, node kind and flag as given, the depth clamped, the scores reduced modulo
`2^16`, and the move as given unless there is none and the position is the same. A write that is refused
changes at most the move and the depth (`Bucket.read_save_of_not_yields`), and no write changes what
the other slots read as (`Bucket.read_save_of_ne`).

Which of the first two happens is decided on what is stored (`Entry.yields_iff`). Its last condition
compares ages; for a generation whose low bits are zero it says that the five generation bits of the
stamp are other ones (`Stamp.age_eq_zero_iff`).
-/

namespace Transposition

/-! ## The fields -/

/-- A score that fits 16 bits is read back as it was. -/
theorem Score.ofInt16_toInt16 {s : Score} (h : s.Fits) : ofInt16 s.toInt16 = s := by
  obtain ⟨hlow, hhigh⟩ := h
  have hraw : (ofInt16 s.toInt16).raw.toInt = s.raw.toInt := by
    rw [toInt_ofInt16_toInt16]
    exact Int.bmod_eq_of_le hlow (by simp only [UInt16.size]; omega)
  exact congrArg Score.mk (Int32.toInt_inj.mp hraw)

/-- A depth is read back clamped. -/
theorem Depth.toInt_ofByte_toByte (d : Depth) : (ofByte (toByte d)).toInt = clamp d := by
  have hbiased := biased_eq d
  rw [toInt_ofByte, toNat_toByte]
  omega

/-- A stamp has no age in the generation that it was made in. -/
theorem Stamp.age_make_self {generation : UInt8} (hg : generation.toNat % 8 = 0) (pv : Bool)
    (b : Bound) : (make generation pv b).age generation = 0 := by
  have hbits := b.toBits_lt
  rw [age_eq _ _ hg, toNat_make hg]
  split <;> omega

/-- A stamp has no age exactly if its generation bits are the current ones. -/
theorem Stamp.age_eq_zero_iff (s : Stamp) {generation : UInt8} (hg : generation.toNat % 8 = 0) :
    s.age generation = 0 ↔ s.byte.toNat / 8 = generation.toNat / 8 := by
  have hgeneration := generation.toNat_lt
  have hbyte := s.byte.toNat_lt
  rw [age_eq _ _ hg]
  omega

/-! ## Entries -/

namespace Entry

variable {p : Replacement} {key : UInt16} {generation : UInt8} {r : Record} {e : Entry}

/-- What a record brings to the comparison of depths, as an integer. -/
theorem claim_eq (r : Record) : (claim r : Int) = r.depth.clamp + 3 + 2 * r.pv.toNat := by
  have hbiased := Depth.biased_eq r.depth
  unfold claim
  cases r.pv <;> simp <;> omega

/-- An entry yields to an exact bound, to another position, to a record that is deep enough, and to a
generation other than its own. -/
theorem yields_iff (hg : generation.toNat % 8 = 0) :
    e.Yields p key generation r ↔
      r.bound = .exact ∨ key ≠ e.key ∨
        (e.depthByte.toNat : Int) - p.depthSlack.toInt < r.depth.clamp + 3 + 2 * r.pv.toNat ∨
        e.stamp.byte.toNat / 8 ≠ generation.toNat / 8 := by
  unfold Yields bar age
  rw [claim_eq, ne_eq (e.stamp.age generation), Stamp.age_eq_zero_iff _ hg]

variable (key r e) in
/-- Before the verdict a write stores its move, unless it has none and is under the key that the entry
has. -/
theorem withMove_eq :
    e.withMove key r =
      { e with move := if r.move = Move.none ∧ key = e.key then e.move else r.move } := by
  unfold withMove
  simp only [Move.isNone, Bool.and_eq_true, beq_iff_eq]
  split <;> rfl

/-- What an overwritten entry reads as. -/
theorem read_save_of_yields (hg : generation.toNat % 8 = 0) (h : e.Yields p key generation r)
    (cut : Bool) :
    (e.save p key generation r).read cut =
      { move := if r.move = Move.none ∧ key = e.key then e.move else r.move
        value := Score.ofInt16 r.value.toInt16
        eval := Score.ofInt16 r.eval.toInt16
        depth := Depth.ofByte r.depth.toByte
        bound := r.bound
        pv := r.pv
        cut := cut } := by
  have hbound := Stamp.bound_make hg r.pv r.bound
  have hpv := Stamp.isPv_make hg r.pv r.bound
  rw [save_of_yields h, withMove_eq]
  simp only [read, overwrite, bound, depth, hbound, hpv]

/-- An entry that refuses a write reads as before but for the move and the depth. -/
theorem read_save_of_not_yields (h : ¬e.Yields p key generation r) (cut : Bool) :
    (e.save p key generation r).read cut =
      { e.read cut with
        move := (e.save p key generation r).move
        depth := (e.save p key generation r).depth } := by
  obtain ⟨-, hvalue, heval, hstamp, -⟩ := save_of_not_yields h
  simp only [read, bound, hvalue, heval, hstamp]

end Entry

/-! ## Buckets -/

namespace Bucket

variable {p : Replacement} {key : UInt16} {generation : UInt8} {r : Record} {slot : Slot}
  {b : Bucket}

/-- What an overwritten slot reads as. -/
theorem read_save_of_yields (hg : generation.toNat % 8 = 0)
    (h : (b.entry slot).Yields p key generation r) :
    (b.save p key generation r slot).read slot =
      { r with
        move := if r.move = Move.none ∧ key = (b.entry slot).key then (b.entry slot).move else r.move
        value := Score.ofInt16 r.value.toInt16
        eval := Score.ofInt16 r.eval.toInt16
        depth := Depth.ofByte r.depth.toByte } := by
  unfold read
  rw [entry_save_self, flag_save_of_yields h, Entry.read_save_of_yields hg h]

/-- A slot that refuses a write reads as before but for the move and the depth. -/
theorem read_save_of_not_yields (h : ¬(b.entry slot).Yields p key generation r) :
    (b.save p key generation r slot).read slot =
      { b.read slot with
        move := ((b.entry slot).save p key generation r).move
        depth := ((b.entry slot).save p key generation r).depth } := by
  unfold read
  rw [entry_save_self, flags_save_of_not_yields h, Entry.read_save_of_not_yields h]

variable (p key generation r b) in
/-- A write leaves what the other slots read as. -/
theorem read_save_of_ne {i : Slot} (h : i ≠ slot) :
    (b.save p key generation r slot).read i = b.read i := by
  have hval : i.val ≠ slot.val := fun heq => h (Fin.ext heq)
  unfold read
  rw [entry_save_of_ne p key generation r b h, flag_save_of_ne p key generation r b hval]

/-! ## Reading back -/

/-- For every bucket, every slot of it and all replacement parameters, a write in a generation whose
low bits are zero is not stopped without checks. It overwrites exactly if its bound is exact, or its
key is not the stored one, or its clamped depth with the bias, and two more for a principal-variation
node, exceeds the stored byte less the slack, or the five generation bits of the stamp are not the
written ones.

After an overwrite the slot reads as what was written: bound, node kind and flag are the same, the
depth is clamped, value and evaluation are reduced to the numbers from `-2^15` to `2^15 - 1` that they
are congruent to, so the same if they fit, and the move is the written one, or the old one if none was
written under the key that was stored. The key is the written one, and the age is zero.

A refused write leaves all but the move and the depth of the slot, and the whole flag word. In either
case the entries of the other slots, what they read as, and all bits of the flag word but that of the
slot are as before. -/
theorem overwrites_iff_and_reads_back {generation : UInt8} (hg : generation.toNat % 8 = 0)
    (p : Replacement) (key : UInt16) (r : Record) (slot : Slot) (b : Bucket) :
    let e := b.entry slot
    let b' := (b.trySave .off p key generation r slot).bucket
    let move := if r.move = Move.none ∧ key = e.key then e.move else r.move
    (b.trySave .off p key generation r slot).fault = none ∧
    (e.verdict p key generation r = .overwrite ↔
      r.bound = .exact ∨ key ≠ e.key ∨
        (e.depthByte.toNat : Int) - p.depthSlack.toInt <
          max (-2) (min 252 r.depth.toInt) + 3 + 2 * r.pv.toNat ∨
        e.stamp.byte.toNat / 8 ≠ generation.toNat / 8) ∧
    (e.verdict p key generation r = .overwrite →
      (b'.read slot).bound = r.bound ∧ (b'.read slot).pv = r.pv ∧ (b'.read slot).cut = r.cut ∧
      (b'.read slot).depth.toInt = max (-2) (min 252 r.depth.toInt) ∧
      (b'.read slot).value.raw.toInt = r.value.raw.toInt.bmod UInt16.size ∧
      (r.value.Fits → (b'.read slot).value = r.value) ∧
      (b'.read slot).eval.raw.toInt = r.eval.raw.toInt.bmod UInt16.size ∧
      (r.eval.Fits → (b'.read slot).eval = r.eval) ∧
      (b'.read slot).move = move ∧ (b'.entry slot).key = key ∧
      (b'.entry slot).age generation = 0) ∧
    (e.verdict p key generation r ≠ .overwrite →
      b'.read slot = { b.read slot with move := move, depth := (b'.read slot).depth } ∧
      (b'.entry slot).key = e.key ∧ (b'.entry slot).stamp = e.stamp ∧ b'.flags = b.flags) ∧
    (∀ i ≠ slot, b'.read i = b.read i ∧ b'.entry i = b.entry i) ∧
    ∀ n ≠ slot.val, b'.flags.get n = b.flags.get n := by
  intro e b' move
  have hsave : b' = b.save p key generation r slot := by
    show (b.trySave .off p key generation r slot).bucket = _
    rw [trySave_off]
  have hclamp : r.depth.clamp = max (-2) (min 252 r.depth.toInt) := by
    rw [Depth.clamp, Depth.toInt_minStorable, Depth.toInt_maxStorable]
  refine ⟨by rw [trySave_off], ?_, fun hv => ?_, fun hv => ?_, fun i hi => ?_, fun n hn => ?_⟩
  · rw [Entry.verdict_eq_overwrite_iff, Entry.yields_iff hg, hclamp]
  · have hy := (Entry.verdict_eq_overwrite_iff p key generation r e).mp hv
    have hread := read_save_of_yields hg hy
    rw [hsave, hread, entry_save_self, Entry.save_of_yields hy]
    exact ⟨rfl, rfl, rfl, (Depth.toInt_ofByte_toByte _).trans hclamp,
      Score.toInt_ofInt16_toInt16 _, Score.ofInt16_toInt16, Score.toInt_ofInt16_toInt16 _,
      Score.ofInt16_toInt16, rfl, rfl, Stamp.age_make_self hg _ _⟩
  · have hy : ¬e.Yields p key generation r := by rwa [← Entry.verdict_eq_overwrite_iff]
    obtain ⟨hkey, -, -, hstamp, -⟩ := Entry.save_of_not_yields hy
    rw [hsave, entry_save_self, flags_save_of_not_yields hy]
    refine ⟨?_, hkey, hstamp, rfl⟩
    rw [read_save_of_not_yields hy, Entry.move_save_eq_withMove, Entry.withMove_eq]
  · rw [hsave]
    exact ⟨read_save_of_ne p key generation r b hi, entry_save_of_ne p key generation r b hi⟩
  · rw [hsave]
    exact flag_save_of_ne p key generation r b hn

/-- An exact record of the last generation before the count comes round, and a write under its key in
the first after it, which is not exact: it overwrites, its depth and both scores do not fit, and it has
no move of its own. Beside it a record whose flag is set. -/
theorem overwrites_iff_and_reads_back_after_round :
    let first := Bucket.empty.save .default 9 248 ⟨⟨3⟩, ⟨-7⟩, ⟨8⟩, 30, .upper, false, true⟩ 0
    let b := first.save .default 5 248 ⟨⟨7⟩, ⟨100⟩, ⟨-100⟩, 100, .exact, false, true⟩ 1
    let r : Record := ⟨Move.none, ⟨40000⟩, ⟨-70000⟩, 300, .lower, true, false⟩
    let b' := (b.trySave .off .default 5 0 r 1).bucket
    (0 : UInt8).toNat % 8 = 0 ∧ (b.entry 1).verdict .default 5 0 r = .overwrite ∧
    (b'.read 1).bound = .lower ∧ (b'.read 1).pv = true ∧ (b'.read 1).cut = false ∧
    (b'.read 1).depth.toInt = 252 ∧ (b'.read 1).value.raw.toInt = -25536 ∧
    (b'.read 1).eval.raw.toInt = -4464 ∧ (b'.read 1).move = ⟨7⟩ ∧ (b'.entry 1).age 0 = 0 ∧
    b'.read 0 = b.read 0 ∧ (b.read 0).cut = true := by
  intro first b r b'
  have hg : (0 : UInt8).toNat % 8 = 0 := rfl
  obtain ⟨-, hiff, hread, -, hothers, -⟩ := overwrites_iff_and_reads_back hg .default 5 r 1 b
  have hv : (b.entry 1).verdict .default 5 0 r = .overwrite := hiff.mpr (by decide)
  obtain ⟨hbound, hpv, hcut, hdepth, hvalue, -, heval, -, hmove, -, hage⟩ := hread hv
  exact ⟨hg, hv, hbound, hpv, hcut, hdepth.trans (by decide), hvalue.trans (by decide),
    heval.trans (by decide), hmove, hage, (hothers 0 (by decide)).1, by decide⟩

end Bucket

end Transposition
