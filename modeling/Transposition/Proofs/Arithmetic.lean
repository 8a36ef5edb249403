import Mathlib.Algebra.Group.Action.Defs
import Mathlib.Algebra.Order.BigOperators.Group.List
import Mathlib.Algebra.Order.Ring.Nat
import Mathlib.Data.Nat.Bitwise
import Transposition.Proofs.Bucket
import Transposition.Proofs.Words

/-!
# The arithmetic in machine words

The definitions of the table compute with naturals and integers. Here the same computations are
written once more, operation by operation, each in the machine word that it is done in, and a word
that a result does not fit ends the computation (`Word.fit?`). None of them ever ends that way: for
whatever bytes an entry is made of, and for whatever is written, with whatever parameters and in
whatever generation, each gives what the definition gives. So `Bucket.arithmetic_fits_its_words` says
of every intermediate result that it is in range.

The two reductions of a score to 16 bits lose digits by intent, and are no part of this.
-/

namespace Transposition

open Word

/-! ## Ages -/

/-- The bits of a word of two bytes that the generation of a stamp lies in. -/
theorem and_generationMask (n : Nat) : n &&& generationMask.toNat = n / 8 % 32 * 8 := by
  have hmask : generationMask.toNat = (2^5 - 1) * 2^3 := by decide
  have hbits : n / 8 % 32 * 8 = n / 2^3 % 2^5 * 2^3 := rfl
  rw [hmask, hbits]
  apply Nat.eq_of_testBit_eq
  intro i
  rw [Nat.testBit_and, Nat.testBit_mul_two_pow, Nat.testBit_mul_two_pow, Nat.testBit_mod_two_pow,
    Nat.testBit_div_two_pow, Nat.testBit_two_pow_sub_one]
  by_cases hi : 3 ≤ i
  · rw [Nat.sub_add_cancel hi, Bool.and_comm]
    simp [hi]
  · simp [hi]

/-- The age of a stamp: a sum and a difference in two bytes, of which the low bits are masked off
before it becomes a byte. -/
def Stamp.age? (s : Stamp) (generation : UInt8) : Option Int := do
  let sum ← u16.fit? (generationCycle + generation.toNat)
  let difference ← u16.fit? (sum - s.byte.toNat)
  u8.fit? ↑(difference.toNat &&& generationMask.toNat)

/-- The age is computed without leaving its words. -/
theorem Stamp.age?_eq (s : Stamp) (generation : UInt8) :
    s.age? generation = some ↑(s.age generation) := by
  have hg := generation.toNat_lt
  have hs := s.byte.toNat_lt
  have hcycle : generationCycle = 263 := rfl
  have hsum : u16.Has (generationCycle + generation.toNat) := ⟨by omega, by omega⟩
  have hdifference : u16.Has ((generationCycle + generation.toNat : Int) - s.byte.toNat) :=
    ⟨by omega, by omega⟩
  have hmasked : ((generationCycle + generation.toNat : Int) - s.byte.toNat).toNat &&&
      generationMask.toNat = s.age generation := by
    rw [and_generationMask]
    unfold Stamp.age
    congr 3
    omega
  have hage : u8.Has ↑(s.age generation) := ⟨by omega, by have := s.age_le generation; omega⟩
  unfold Stamp.age?
  simp only [fit?_eq_some hsum, fit?_eq_some hdifference, hmasked, fit?_eq_some hage,
    Option.bind_eq_bind, Option.bind_some]

namespace Entry

/-- The age of an entry in words. -/
def age? (e : Entry) (generation : UInt8) : Option Int := e.stamp.age? generation

/-- The age of an entry is computed without leaving its words. -/
@[simp]
theorem age?_eq (e : Entry) (generation : UInt8) :
    e.age? generation = some ↑(e.age generation) :=
  e.stamp.age?_eq generation

/-! ## Depths -/

/-- The depth of an entry in words. -/
def depth? (e : Entry) : Option Int := i32.fit? (e.depthByte.toNat + Depth.offset.toInt)

/-- The depth of an entry is computed without leaving its word. -/
@[simp]
theorem depth?_eq (e : Entry) : e.depth? = some e.depth.toInt := by
  have hbyte := e.depthByte.toNat_lt
  have hdepth : (e.depthByte.toNat + Depth.offset.toInt : Int) = e.depth.toInt := by
    rw [Depth.toInt_offset, depth, Depth.toInt_ofByte]
    omega
  have hfits : i32.Has e.depth.toInt := by
    rw [← hdepth, Depth.toInt_offset]
    exact ⟨by omega, by omega⟩
  unfold depth?
  rw [hdepth, fit?_eq_some hfits]

/-- The record of an entry, with its depth in words. -/
def read? (e : Entry) (cut : Bool) : Option Record := do
  let depth ← e.depth?
  return { e.read cut with depth := Int32.ofInt depth }

/-- An entry is read without leaving its words. -/
@[simp]
theorem read?_eq (e : Entry) (cut : Bool) : e.read? cut = some (e.read cut) := by
  unfold read?
  rw [depth?_eq, Option.bind_eq_bind, Option.bind_some, Int32.ofInt_toInt]
  rfl

/-- The depth that a write stores, clamped and without its bias. -/
def written? (r : Record) : Option Int := i32.fit? (r.depth.clamp - Depth.offset.toInt)

/-- The depth that a write stores is computed without leaving its word. -/
@[simp]
theorem written?_eq (r : Record) : written? r = some ↑r.depth.biased := by
  have hbiased := r.depth.biased_eq
  have hbounds := r.depth.biased_bounds
  have hdepth : r.depth.clamp - Depth.offset.toInt = r.depth.biased := by
    rw [Depth.toInt_offset]
    omega
  have hfits : i32.Has r.depth.biased := ⟨by omega, by omega⟩
  unfold written?
  rw [hdepth, fit?_eq_some hfits]

/-! ## The answer to a write -/

/-- What a record brings to the comparison of depths, in words. -/
def claim? (r : Record) : Option Int := do
  let depth ← written? r
  let bonus ← i32.fit? (2 * if r.pv then 1 else 0)
  i32.fit? (depth + bonus)

/-- What a record brings to the comparison is computed without leaving its words. -/
@[simp]
theorem claim?_eq (r : Record) : claim? r = some ↑(claim r) := by
  have hbounds := r.depth.biased_bounds
  have hbonus : i32.Has (2 * if r.pv then 1 else 0) := by cases r.pv <;> decide
  have hclaim : (r.depth.biased : Int) + 2 * (if r.pv then 1 else 0) = claim r := by
    unfold claim
    cases r.pv <;> rfl
  have hfits : i32.Has (claim r) := by
    unfold claim
    exact ⟨by omega, by split <;> omega⟩
  unfold claim?
  simp only [written?_eq, fit?_eq_some hbonus, hclaim, fit?_eq_some hfits, Option.bind_eq_bind,
    Option.bind_some]

/-- What a record has to exceed, in words. -/
def bar? (p : Replacement) (e : Entry) : Option Int :=
  i64.fit? (e.depthByte.toNat - p.depthSlack.toInt)

/-- What a record has to exceed is computed without leaving its word, whatever the slack. -/
@[simp]
theorem bar?_eq (p : Replacement) (e : Entry) : bar? p e = some (bar p e) := by
  have hbyte := e.depthByte.toNat_lt
  have hlow := p.depthSlack.le_toInt
  have hhigh := p.depthSlack.toInt_lt
  have hfits : i64.Has (bar p e) := by
    unfold bar
    exact ⟨by omega, by omega⟩
  exact fit?_eq_some hfits

/-- Whether a write overwrites an entry. What is compared is computed only where the conditions before
it do not decide. -/
def yields? (p : Replacement) (key : UInt16) (generation : UInt8) (r : Record) (e : Entry) :
    Option Bool :=
  if r.bound = .exact ∨ key ≠ e.key then some true
  else do
    let claim ← claim? r
    let bar ← bar? p e
    if bar < claim then return true
    let age ← e.age? generation
    return decide (age ≠ 0)

/-- Whether an entry that stays loses a ply. The depth is computed only of a byte above one. -/
def decays? (p : Replacement) (e : Entry) : Option Bool :=
  if 1 < e.depthByte.toNat then do
    let depth ← e.depth?
    return decide (p.decayThreshold.toInt ≤ depth ∧ e.bound ≠ .exact)
  else some false

/-- The entry after an unchecked write, in words. -/
def save? (p : Replacement) (key : UInt16) (generation : UInt8) (r : Record) (e : Entry) :
    Option Entry := do
  let depth ← written? r
  if ← e.yields? p key generation r then
    let byte ← u8.fit? depth
    let nodeKind ← u8.fit? ((if r.pv then 1 else 0) * 2^2)
    return {
      key := key
      depthByte := UInt8.ofNat byte.toNat
      stamp := ⟨generation ||| UInt8.ofNat nodeKind.toNat ||| r.bound.toBits⟩
      move := (e.withMove key r).move
      value := r.value.toInt16
      eval := r.eval.toInt16 }
  else if ← e.decays? p then
    let less ← i32.fit? (e.depthByte.toNat - 1)
    let byte ← u8.fit? less
    return { e.withMove key r with depthByte := UInt8.ofNat byte.toNat }
  else return e.withMove key r

section Save

variable (p : Replacement) (key : UInt16) (generation : UInt8) (r : Record) (e : Entry)

/-- Whether a write overwrites is found out without leaving the words. -/
@[simp]
theorem yields?_eq :
    e.yields? p key generation r = some (decide (e.Yields p key generation r)) := by
  unfold yields? Yields
  by_cases hfirst : r.bound = .exact ∨ key ≠ e.key
  · rw [if_pos hfirst]
    rcases hfirst with h | h <;> simp [h]
  · rw [not_or] at hfirst
    by_cases hdeep : bar p e < claim r <;> simp [hfirst.1, hfirst.2, hdeep]

/-- Whether an entry that stays loses a ply is found out without leaving the words. -/
@[simp]
theorem decays?_eq : e.decays? p = some (decide (e.Decays p)) := by
  have hdepth : e.depth.toInt = e.depthByte.toNat + Depth.offset.toInt := by
    rw [Depth.toInt_offset, depth, Depth.toInt_ofByte]
    omega
  unfold decays? Decays
  by_cases hbyte : 1 < e.depthByte.toNat <;> simp [hbyte, hdepth]

/-- A write is computed without leaving the words. -/
theorem save?_eq : e.save? p key generation r = some (e.save p key generation r) := by
  have hbounds := r.depth.biased_bounds
  have hwritten : u8.Has r.depth.biased := ⟨by omega, by omega⟩
  have hkind : u8.Has ((if r.pv then 1 else 0) * 2^2) := by cases r.pv <;> decide
  have hbit : UInt8.ofNat ((if r.pv then 1 else 0) * 2^2 : Int).toNat = if r.pv then 4 else 0 := by
    cases r.pv <;> rfl
  rcases e.save_cases p key generation r with ⟨hy, -, hs⟩ | ⟨hn, hd, -, hs⟩ | ⟨hn, hd, -, hs⟩
  · unfold save?
    simp only [written?_eq, yields?_eq, hy, decide_true, if_true, fit?_eq_some hwritten,
      fit?_eq_some hkind, hbit, hs, Option.bind_eq_bind, Option.bind_some]
    rfl
  · -- Only a byte above one is worn down, so a byte is left.
    have hbyte := e.depthByte.toNat_lt
    have habove := hd.1
    have hless : i32.Has (e.depthByte.toNat - 1 : Int) := ⟨by omega, by omega⟩
    have hnarrow : u8.Has (e.depthByte.toNat - 1 : Int) := ⟨by omega, by omega⟩
    have hpred : UInt8.ofNat (e.depthByte.toNat - 1 : Int).toNat = e.depthByte - 1 := by
      have hdecay : (e.depthByte - 1).toNat + 1 = e.depthByte.toNat := toNat_depthByte_decay habove
      apply UInt8.toNat_inj.mp
      rw [UInt8.toNat_ofNat']
      omega
    unfold save?
    simp only [written?_eq, yields?_eq, hn, decays?_eq, hd, decide_true, decide_false, if_true,
      Bool.false_eq_true, if_false, fit?_eq_some hless, fit?_eq_some hnarrow, hpred, hs,
      Option.bind_eq_bind, Option.bind_some]
    show some { e.withMove key r with depthByte := e.depthByte - 1 } = some (e.withMove key r).decay
    unfold decay
    rw [depthByte_withMove]
  · unfold save?
    simp [hn, hd, hs]

/-- The byte that an overwrite or a decay stores is that of an occupied entry. -/
theorem depthByte_save_bounds (h : e.verdict p key generation r ≠ .keep) :
    1 ≤ (e.save p key generation r).depthByte.toNat ∧
      (e.save p key generation r).depthByte.toNat ≤ 255 := by
  have hlt := (e.save p key generation r).depthByte.toNat_lt
  have hoccupied : (e.save p key generation r).occupied = true := by
    rw [occupied_save_iff, occupied_iff]
    rcases e.save_cases p key generation r with ⟨hy, -, -⟩ | ⟨-, hd, -, -⟩ | ⟨-, -, hv, -⟩
    · exact Or.inl hy
    · have habove := hd.1
      exact Or.inr (by omega)
    · exact absurd hv h
  rw [occupied_iff] at hoccupied
  omega

end Save

end Entry

/-! ## Buckets -/

/-- Reads a flag, by a shift that has to be shorter than the word. -/
def Flags.get? (f : Flags) (i : Nat) : Option Bool :=
  if i < width then some (f.get i) else Option.none

/-- Sets or clears a flag. The mask is the lowest flag, shifted. -/
def Flags.set? (f : Flags) (i : Nat) (flag : Bool) : Option Flags := do
  let mask ← u16.fit? (1 * 2^i)
  let bits := UInt16.ofNat mask.toNat
  return ⟨if flag then f.word ||| bits else f.word &&& ~~~bits⟩

/-- A flag of the word is set without leaving the word. -/
theorem Flags.set?_eq (f : Flags) {i : Nat} (hi : i < width) (flag : Bool) :
    f.set? i flag = some (f.set i flag) := by
  have hmask : (1 * 2^i : Int) = (mask i).toNat := by
    rw [toNat_mask hi, Nat.one_shiftLeft, Int.one_mul]
    exact (Int.natCast_pow 2 i).symm
  have hfits : u16.Has (mask i).toNat := ⟨by omega, by have := (mask i).toNat_lt; omega⟩
  unfold set?
  rw [hmask, fit?_eq_some hfits]
  simp only [Option.bind_eq_bind, Option.bind_some, Int.toNat_natCast, UInt16.ofNat_toNat]
  rfl

namespace Bucket

/-- The record in a slot, in words. -/
def read? (b : Bucket) (slot : Slot) : Option Record := do
  let cut ← b.flags.get? slot
  (b.entry slot).read? cut

/-- The bucket after an unchecked write, in words. -/
def save? (p : Replacement) (key : UInt16) (generation : UInt8) (r : Record) (slot : Slot)
    (b : Bucket) : Option Bucket := do
  let written ← (b.entry slot).save? p key generation r
  if ← (b.entry slot).yields? p key generation r then
    let flags ← b.flags.set? slot r.cut
    return { b.setEntry slot written with flags }
  else return b.setEntry slot written

/-- The worth of an entry in words. -/
def worth? (p : Replacement) (generation : UInt8) (e : Entry) : Option Int := do
  let age ← e.age? generation
  let discount ← i64.fit? (p.ageWeight.toInt * age)
  i64.fit? (e.depthByte.toNat - discount)

/-- There is a first slot. -/
theorem entryCount_pos : 0 < entryCount := by decide

/-- The slot whose entry is worth least, in words. -/
def victim? (p : Replacement) (generation : UInt8) (b : Bucket) : Option Slot :=
  slots.foldlM
    (fun best i => do
      let least ← worth? p generation (b.entry best)
      let worth ← worth? p generation (b.entry i)
      return if worth < least then i else best)
    ⟨0, entryCount_pos⟩

/-- Whether an entry is occupied and its age at most a limit. The age of an unoccupied entry is not
computed. -/
def recent? (generation : UInt8) (limit : Int) (e : Entry) : Option Bool :=
  if e.occupied then do
    let age ← e.age? generation
    return decide (age ≤ limit)
  else some false

/-- The number of recent entries, counted up in words. -/
def countRecent? (generation : UInt8) (limit : Int) (b : Bucket) : Option Int :=
  slots.foldlM
    (fun count i => do
      let recent ← recent? generation limit (b.entry i)
      u64.fit? (count + recent.toNat))
    0

section Words

variable (p : Replacement) (key : UInt16) (generation : UInt8) (r : Record) (slot : Slot)
  (b : Bucket)

/-- The position of a slot is one in the word of flags. -/
theorem slot_lt_width : slot.val < Flags.width := Nat.lt_trans slot.isLt (by decide)

/-- A slot is read without leaving the words. -/
theorem read?_eq : b.read? slot = some (b.read slot) := by
  unfold read? Flags.get?
  rw [if_pos (slot_lt_width slot)]
  exact (b.entry slot).read?_eq _

/-- A write is computed without leaving the words. -/
theorem save?_eq : b.save? p key generation r slot = some (b.save p key generation r slot) := by
  have hset := b.flags.set?_eq (slot_lt_width slot) r.cut
  unfold save? save
  by_cases hy : (b.entry slot).Yields p key generation r
  · rw [(Entry.verdict_eq_overwrite_iff _ _ _ _ _).mpr hy]
    simp only [Entry.save?_eq, Entry.yields?_eq, hy, decide_true, if_true, hset,
      Option.bind_eq_bind, Option.bind_some]
    rfl
  · have hv : (b.entry slot).verdict p key generation r ≠ .overwrite :=
      fun hv => hy ((Entry.verdict_eq_overwrite_iff _ _ _ _ _).mp hv)
    simp only [Entry.save?_eq, Entry.yields?_eq, hy, decide_false, Bool.false_eq_true, if_false,
      Option.bind_eq_bind, Option.bind_some]
    rfl

/-- The worth of an entry is computed without leaving its words, whatever the weight. -/
@[simp]
theorem worth?_eq (e : Entry) : worth? p generation e = some (worth p generation e) := by
  have hbyte := e.depthByte.toNat_lt
  have hlow := p.ageWeight.le_toInt
  have hhigh := p.ageWeight.toInt_lt
  have hage : e.age generation ≤ 248 := e.stamp.age_le generation
  have hlower : -2^31 * (e.age generation : Int) ≤ p.ageWeight.toInt * e.age generation :=
    Int.mul_le_mul_of_nonneg_right (by omega) (by omega)
  have hupper : p.ageWeight.toInt * e.age generation ≤ 2^31 * (e.age generation : Int) :=
    Int.mul_le_mul_of_nonneg_right (by omega) (by omega)
  have hfits : i64.Has (p.ageWeight.toInt * e.age generation) := ⟨by omega, by omega⟩
  have hworth : i64.Has (e.depthByte.toNat - p.ageWeight.toInt * e.age generation) :=
    ⟨by omega, by omega⟩
  unfold worth?
  simp only [Entry.age?_eq, fit?_eq_some hfits, fit?_eq_some hworth, Option.bind_eq_bind,
    Option.bind_some, worth]

/-- The slot that gives way is found without leaving the words. -/
theorem victim?_eq : b.victim? p generation = some (b.victim p generation) := by
  unfold victim?
  simp only [worth?_eq, Option.bind_eq_bind, Option.bind_some]
  exact List.foldlM_pure

/-- Whether an entry is recent is found out without leaving the words. -/
@[simp]
theorem recent?_eq (limit : Nat) (e : Entry) :
    recent? generation limit e = some (e.occupied && decide (e.age generation ≤ limit)) := by
  unfold recent?
  cases e.occupied <;> simp

/-- The recent entries of a bucket are at most its entries. -/
theorem countRecent_le (limit : Nat) : b.countRecent generation limit ≤ entryCount :=
  List.countP_le_length

/-- The recent entries are counted without leaving the words. -/
@[simp]
theorem countRecent?_eq (limit : Nat) :
    b.countRecent? generation limit = some ↑(b.countRecent generation limit) := by
  unfold countRecent?
  simp only [recent?_eq, Option.bind_eq_bind, Option.bind_some]
  have hcount := foldlM_fit?
    (fun i => ((b.entry i).occupied && decide ((b.entry i).age generation ≤ limit)).toNat) slots 0
    (fun i _ => Bool.toNat_le _) (by decide : u64.Has ↑(0 + slots.length * 1))
  rw [sum_map_toNat, Nat.zero_add] at hcount
  exact hcount

end Words

end Bucket

/-! ## The occupancy estimate -/

/-- The share of a count among the entries of so many buckets, per thousand, in words. A division by
zero is a fault of the estimate itself. -/
def Table.perMille? (count : Int) (sample : Nat) : Option (Except Fault Nat) := do
  let thousandfold ← u64.fit? (count * 1000)
  let entries ← u64.fit? (sample * entryCount)
  if entries = 0 then return .error .divisionByZero
  let quotient ← u64.fit? (thousandfold / entries)
  let share ← i32.fit? quotient
  return .ok share.toNat

/-- The occupancy estimate in words. -/
def Table.hashfull? (maxAge : Option UInt8) (t : Table) : Option (Except Fault Nat) := do
  let limit ← u16.fit? ((maxAge.getD 0).toNat * 2^generationBits)
  let sample := min hashfullSample t.bucketCount
  let count ← (t.buckets.extract 0 sample).toList.foldlM
    (fun count b => do
      let recent ← b.countRecent? t.generation limit
      u64.fit? (count + recent))
    0
  perMille? count sample

/-- The share of a count among the entries that the estimate looks at is computed without leaving the
words. -/
theorem Table.perMille?_eq {count sample : Nat} (hcount : count ≤ 3000) (hsample : sample ≤ 1000) :
    perMille? count sample =
      some (if sample * entryCount = 0 then .error .divisionByZero
        else .ok (count * 1000 / (sample * entryCount))) := by
  have hthousandfold : (count * 1000 : Int) = ↑(count * 1000) := by omega
  have hentries : sample * entryCount ≤ 3000 := Nat.mul_le_mul_right 3 hsample
  have hquotient : count * 1000 / (sample * entryCount) ≤ count * 1000 := Nat.div_le_self _ _
  have hfits {n : Nat} (hn : n ≤ 3000000) : u64.Has n ∧ i32.Has n :=
    ⟨⟨by omega, by omega⟩, ⟨by omega, by omega⟩⟩
  have hcount' := hfits (by omega : count * 1000 ≤ 3000000)
  have hentries' := hfits (by omega : sample * entryCount ≤ 3000000)
  have hquotient' := hfits (by omega : count * 1000 / (sample * entryCount) ≤ 3000000)
  unfold perMille?
  simp only [hthousandfold, ← Int.natCast_mul sample, fit?_eq_some hcount'.1,
    fit?_eq_some hentries'.1, Option.bind_eq_bind, Option.bind_some, Int.natCast_eq_zero]
  by_cases hzero : sample * entryCount = 0
  · rw [if_pos hzero, if_pos hzero]
    rfl
  · rw [if_neg hzero, if_neg hzero]
    rw [← Int.natCast_ediv, fit?_eq_some hquotient'.1, Option.bind_some,
      fit?_eq_some hquotient'.2, Option.bind_some, Int.toNat_natCast]
    rfl

/-- The limit on the age, in units of eight, fits two bytes. -/
theorem Table.fit?_limit (maxAge : Option UInt8) :
    u16.fit? ((maxAge.getD 0).toNat * 2^generationBits) =
      some ↑((maxAge.getD 0).toNat <<< generationBits) := by
  have hage := (maxAge.getD 0).toNat_lt
  have hunit : (2^generationBits : Int) = 8 := rfl
  have hlimit : (maxAge.getD 0).toNat <<< generationBits = (maxAge.getD 0).toNat * 8 :=
    Nat.shiftLeft_eq _ _
  have hfits : u16.Has ((maxAge.getD 0).toNat * 8 : Int) := ⟨by omega, by omega⟩
  rw [hunit, hlimit, fit?_eq_some hfits, Int.natCast_mul]
  rfl

/-- The recent entries of some buckets are counted without leaving the words, if there are not more
buckets than the estimate looks at. -/
theorem Bucket.foldlM_countRecent? (generation : UInt8) (limit : Nat) {l : List Bucket}
    (h : l.length ≤ Table.hashfullSample) :
    l.foldlM
        (fun (count : Int) b => do
          let recent ← b.countRecent? generation limit
          u64.fit? (count + recent))
        0 =
      some ↑(l.map (countRecent generation limit)).sum ∧
    (l.map (countRecent generation limit)).sum ≤ 3000 := by
  have hmax : l.length * entryCount ≤ 1000 * 3 := Nat.mul_le_mul_right _ h
  constructor
  · simp only [countRecent?_eq, Option.bind_eq_bind, Option.bind_some]
    have hfold := foldlM_fit? (countRecent generation limit) l 0
      (fun b _ => b.countRecent_le generation limit)
      (⟨by omega, by omega⟩ : u64.Has ↑(0 + l.length * entryCount))
    rw [Nat.zero_add] at hfold
    exact hfold
  · calc (l.map (countRecent generation limit)).sum
        ≤ (l.map (countRecent generation limit)).length • entryCount :=
          List.sum_le_card_nsmul _ _ (by simpa using fun b _ => b.countRecent_le generation limit)
      _ = l.length * entryCount := by rw [List.length_map, smul_eq_mul]
      _ ≤ 3000 := hmax

/-- The occupancy estimate is computed without leaving the words, whatever the buckets hold. -/
theorem Table.hashfull?_eq (maxAge : Option UInt8) (t : Table) :
    t.hashfull? maxAge = some (t.hashfull maxAge) := by
  have hsample : min hashfullSample t.bucketCount ≤ hashfullSample := Nat.min_le_left _ _
  have hlength : (t.buckets.extract 0 (min hashfullSample t.bucketCount)).toList.length ≤
      hashfullSample := by
    rw [Array.length_toList, Array.size_extract]
    omega
  obtain ⟨hfold, hsum⟩ := Bucket.foldlM_countRecent? t.generation
    ((maxAge.getD 0).toNat <<< generationBits) hlength
  unfold hashfull? hashfull
  rw [fit?_limit, Option.bind_eq_bind, Option.bind_some]
  dsimp only
  rw [hfold, Option.bind_some, perMille?_eq hsum hsample, ← List.sum_eq_foldl]

/-! ## No operation leaves its word -/

/-- For entries of any bytes and flag words of any bits, for any parameters, valid or not, for any
record, any generation, with its low bits too, and any limit on the age: the ages, the depths and what
a slot reads as, the write of a record, the choice of the slot that gives way and the occupancy
estimate are all computed without an operation whose result leaves the word that it is computed in,
and give what their definitions give. The byte of the depth that an overwrite or a decay stores is one
from 1 to 255. -/
theorem Bucket.arithmetic_fits_its_words (p : Replacement) (key : UInt16) (generation : UInt8)
    (r : Record) (slot : Slot) (b : Bucket) (maxAge : Option UInt8) (t : Table) :
    (b.entry slot).age? generation = some ↑((b.entry slot).age generation) ∧
      (b.entry slot).depth? = some (b.entry slot).depth.toInt ∧
      b.read? slot = some (b.read slot) ∧
      b.save? p key generation r slot = some (b.save p key generation r slot) ∧
      ((b.entry slot).verdict p key generation r ≠ .keep →
        1 ≤ ((b.save p key generation r slot).entry slot).depthByte.toNat ∧
          ((b.save p key generation r slot).entry slot).depthByte.toNat ≤ 255) ∧
      b.victim? p generation = some (b.victim p generation) ∧
      t.hashfull? maxAge = some (t.hashfull maxAge) := by
  refine ⟨(b.entry slot).age?_eq generation, (b.entry slot).depth?_eq, b.read?_eq slot,
    b.save?_eq p key generation r slot, fun hv => ?_, b.victim?_eq p generation,
    t.hashfull?_eq maxAge⟩
  rw [entry_save_self]
  exact (b.entry slot).depthByte_save_bounds p key generation r hv

/-- With the least slack and the greatest weight that a parameter can have, a bucket whose first entry
is all ones, in generations whose low bits are set. The weighted age takes the worth far below what
32 bits hold, and the slack raises the bar above them; the write is refused, and takes one from the
greatest byte. -/
theorem Bucket.arithmetic_fits_its_words_extreme :
    let p : Replacement := ⟨Int32.minValue, Int32.minValue, Int32.maxValue⟩
    let ones : Entry := ⟨0xFFFF, 255, ⟨0xFE⟩, ⟨0xFFFF⟩, -1, -1⟩
    let r : Record := ⟨⟨1⟩, ⟨Int32.maxValue⟩, ⟨Int32.minValue⟩, Int32.maxValue, .lower, true, true⟩
    let b := Bucket.empty.setEntry 0 ones
    let t : Table := ⟨.single, #[b], 1, 7, p⟩
    (b.entry 0).verdict p 0xFFFF 254 r ≠ .keep ∧
      Entry.bar? p (b.entry 0) = some (255 + 2^31) ∧
      worth? p 7 (b.entry 0) = some (255 - (2^31 - 1) * 16) ∧
      b.save? p 0xFFFF 254 r 0 = some (b.save p 0xFFFF 254 r 0) ∧
      1 ≤ ((b.save p 0xFFFF 254 r 0).entry 0).depthByte.toNat ∧
      ((b.save p 0xFFFF 254 r 0).entry 0).depthByte = 254 ∧
      b.victim? p 7 = some 0 ∧ t.hashfull? (some 255) = some (.ok 333) := by
  intro p ones r b t
  have hv : (b.entry 0).verdict p 0xFFFF 254 r ≠ .keep := by decide
  obtain ⟨-, -, -, hsave, hbounds, -, -⟩ := arithmetic_fits_its_words p 0xFFFF 254 r 0 b none t
  obtain ⟨-, -, -, -, -, hvictim, hhashfull⟩ :=
    arithmetic_fits_its_words p 0xFFFF 7 r 0 b (some 255) t
  refine ⟨hv, ?_, ?_, hsave, (hbounds hv).1, ?_, ?_, ?_⟩
  · rw [Entry.bar?_eq]
    decide
  · rw [worth?_eq]
    decide
  · decide
  · rw [hvictim]
    decide
  · rw [hhashfull]
    decide

end Transposition
