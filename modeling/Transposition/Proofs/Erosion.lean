import Transposition.Proofs.ReadBack

/-!
# What refused writes wear away

A write that an entry refuses can replace the move and take a ply off the depth, and nothing more.
So what is left after any number of them can be said without going through them one by one:
`Entry.Worn` is the state of an entry after `n` refused writes, whatever they were. The depth goes
down by one with each write and stops at `Replacement.decayFloor`, a ply below the threshold of decay
or at the smallest depth that can be stored, whichever is higher (`Entry.decays_iff`). An exact entry,
and one that is not above the floor, is not worn at all.

Every write of a sequence is judged by what those before it have left, so an entry that refuses a
write a few times may give way to it in the end. `Entry.RefusesAll` says of a sequence that it never
comes to that. Since the depth that each write meets is known, so is which sequences are refused
(`Entry.refusesAll_iff`); what they leave of the bucket says `Bucket.refused_writes_wear_down`.
-/

namespace Transposition

/-- What is written into a slot. -/
structure Offer where
  /-- The key, of 16 bits. -/
  key : UInt16
  /-- The generation that is passed. -/
  generation : UInt8
  /-- The record. -/
  record : Record
  deriving DecidableEq, Repr

/-- The depth at which decay stops: a ply below its threshold, and short of emptying the entry. -/
def Replacement.decayFloor (p : Replacement) : Int :=
  max (p.decayThreshold.toInt - 1) Depth.minStorable.toInt

/-- The depth that an entry must be below to be overwritten by a record for its depth: that of the
record, with two plies more for a node of the principal variation and with the slack. -/
def Replacement.reach (p : Replacement) (r : Record) : Int :=
  r.depth.clamp + 2 * r.pv.toNat + p.depthSlack.toInt

/-! ## Entries -/

namespace Entry

/-- The entry after a sequence of writes. -/
def saveAll (p : Replacement) (offers : List Offer) (e : Entry) : Entry :=
  offers.foldl (fun e o => e.save p o.key o.generation o.record) e

/-- Every write of a sequence is refused by what those before it have left of the entry. -/
def RefusesAll (p : Replacement) : List Offer → Entry → Prop
  | [], _ => True
  | o :: rest, e =>
    ¬e.Yields p o.key o.generation o.record ∧
      RefusesAll p rest (e.save p o.key o.generation o.record)

instance decidableRefusesAll (p : Replacement) :
    (offers : List Offer) → (e : Entry) → Decidable (e.RefusesAll p offers)
  | [], _ => inferInstanceAs (Decidable True)
  | o :: rest, e =>
    have := decidableRefusesAll p rest (e.save p o.key o.generation o.record)
    inferInstanceAs (Decidable (_ ∧ _))

/-- The depth of the entry after so many refused writes. -/
def wornDepth (p : Replacement) (e : Entry) (n : Nat) : Int :=
  if e.bound = .exact ∨ e.depth.toInt ≤ p.decayFloor then e.depth.toInt
  else max p.decayFloor (e.depth.toInt - n)

/-- `Worn p n e e'`: but for the move, `e'` is what `n` refused writes leave of `e`. -/
structure Worn (p : Replacement) (n : Nat) (e e' : Entry) : Prop where
  /-- The key stays. -/
  key : e'.key = e.key
  /-- The generation, the node kind and the bound stay. -/
  stamp : e'.stamp = e.stamp
  /-- The value stays. -/
  value : e'.value = e.value
  /-- The evaluation stays. -/
  eval : e'.eval = e.eval
  /-- The depth has gone down towards the floor. -/
  depth : e'.depth.toInt = e.wornDepth p n

/-- An entry refuses a write that comes after `n` refused ones: it is under the same key and of the
same generation, it is not exact, and the depth that is left of the entry is out of its reach. -/
structure Withstands (p : Replacement) (n : Nat) (o : Offer) (e : Entry) : Prop where
  /-- The key is the stored one. -/
  key : o.key = e.key
  /-- The entry has no age in the generation that is passed. -/
  age : e.age o.generation = 0
  /-- The written bound is not exact. -/
  bound : o.record.bound ≠ .exact
  /-- The entry is still too deep. -/
  depth : p.reach o.record ≤ e.wornDepth p n

section Worn

variable {p : Replacement} {m n : Nat} {e e' e'' : Entry}

/-- The depth of an entry is its byte without the bias. -/
theorem toInt_depth (e : Entry) : e.depth.toInt = e.depthByte.toNat - 3 :=
  Depth.toInt_ofByte e.depthByte

/-- An entry is worn by a write that it refuses exactly if it is not exact and above the floor. -/
theorem decays_iff : e.Decays p ↔ e.bound ≠ .exact ∧ p.decayFloor < e.depth.toInt := by
  unfold Decays Replacement.decayFloor
  rw [toInt_depth, Depth.toInt_offset, Depth.toInt_minStorable]
  -- The byte must be above 1, and the depth at the threshold: the floor is a ply below either.
  constructor
  · rintro ⟨hbyte, hthreshold, hbound⟩
    exact ⟨hbound, by omega⟩
  · rintro ⟨hbound, hfloor⟩
    exact ⟨by omega, by omega, hbound⟩

/-- No write, no wear. -/
theorem Worn.refl (p : Replacement) (e : Entry) : Worn p 0 e e := by
  refine ⟨rfl, rfl, rfl, rfl, ?_⟩
  unfold wornDepth
  split <;> omega

/-- Wear goes on from where it has come to. -/
theorem Worn.wornDepth_eq (h : Worn p m e e') (n : Nat) :
    e'.wornDepth p n = e.wornDepth p (m + n) := by
  have hbound : e'.bound = e.bound := congrArg Stamp.bound h.stamp
  have hdepth := h.depth
  unfold wornDepth at hdepth ⊢
  rw [hbound]
  -- Once at the floor an entry stays there, so the two floors are one.
  split at hdepth
  · rename_i hstays
    rw [hdepth, if_pos hstays, if_pos hstays]
  · rename_i hwears
    rw [not_or] at hwears
    simp only [or_iff_right hwears.1, if_neg hwears.2]
    split <;> omega

/-- Refused writes after refused writes. -/
theorem Worn.trans (h : Worn p m e e') (h' : Worn p n e' e'') : Worn p (m + n) e e'' where
  key := h'.key.trans h.key
  stamp := h'.stamp.trans h.stamp
  value := h'.value.trans h.value
  eval := h'.eval.trans h.eval
  depth := h'.depth.trans (h.wornDepth_eq n)

/-- One refused write wears an entry once. -/
theorem worn_save {key : UInt16} {generation : UInt8} {r : Record}
    (hn : ¬e.Yields p key generation r) : Worn p 1 e (e.save p key generation r) := by
  obtain ⟨hkey, hvalue, heval, hstamp, hbyte⟩ := save_of_not_yields hn
  refine ⟨hkey, hstamp, hvalue, heval, ?_⟩
  have hdecays := e.decays_iff (p := p)
  rw [toInt_depth] at hdecays ⊢
  unfold wornDepth
  rw [toInt_depth]
  -- A write overwrites, wears the entry, or leaves it; the first is excluded.
  rcases e.save_cases p key generation r with ⟨hy, -⟩ | ⟨-, hd, hv, -⟩ | ⟨-, hd, hv, -⟩
  · exact absurd hy hn
  · rw [hv, if_pos rfl] at hbyte
    obtain ⟨hbound, hfloor⟩ := hdecays.mp hd
    rw [if_neg (not_or.mpr ⟨hbound, by omega⟩)]
    omega
  · rw [hv, if_neg (by decide)] at hbyte
    have hstays : e.bound = .exact ∨ (e.depthByte.toNat : Int) - 3 ≤ p.decayFloor := by
      by_contra h
      rw [not_or] at h
      exact hd (hdecays.mpr ⟨h.1, by omega⟩)
    rw [if_pos hstays]
    omega

end Worn

section RefusesAll

variable {p : Replacement} {offers : List Offer} {e : Entry}

/-- A sequence of refused writes wears an entry as often as it is long. -/
theorem RefusesAll.worn (h : e.RefusesAll p offers) :
    Worn p offers.length e (e.saveAll p offers) := by
  induction offers generalizing e with
  | nil => exact Worn.refl p e
  | cons o rest ih =>
    obtain ⟨hn, hrest⟩ := h
    rw [List.length_cons, Nat.add_comm]
    exact (worn_save hn).trans (ih hrest)

/-- A refused write stores its move, if it has one. -/
theorem move_save_of_not_yields {key : UInt16} {generation : UInt8} {r : Record}
    (hn : ¬e.Yields p key generation r) :
    (e.save p key generation r).move = if r.move = Move.none then e.move else r.move := by
  have hkey := key_eq_of_not_yields hn
  rw [move_save_eq_withMove, withMove_eq]
  simp only [hkey, and_true]

/-- The first write is refused exactly if the entry withstands it. -/
theorem not_yields_iff {o : Offer} :
    ¬e.Yields p o.key o.generation o.record ↔ e.Withstands p 0 o := by
  have hworn := (Worn.refl p e).depth
  have hdepth : bar p e < claim o.record ↔ e.depth.toInt < p.reach o.record := by
    unfold bar Replacement.reach
    rw [claim_eq, toInt_depth]
    omega
  unfold Yields
  rw [hdepth, hworn]
  constructor
  · intro hn
    rw [not_or, not_or, not_or, not_not, not_not, Int.not_lt] at hn
    exact ⟨hn.2.1, hn.2.2.2, hn.1, hn.2.2.1⟩
  · rintro ⟨hkey, hage, hbound, hreach⟩ (hexact | hother | hlt | hold)
    · exact hbound hexact
    · exact hother hkey
    · omega
    · exact hold hage

/-- An entry that is left by refused writes withstands what the entry before them does after so many
more. -/
theorem Worn.withstands_iff {e' : Entry} {m n : Nat} (h : Worn p m e e') (o : Offer) :
    e'.Withstands p n o ↔ e.Withstands p (m + n) o := by
  have hage : e'.age o.generation = e.age o.generation := by
    unfold age
    rw [h.stamp]
  constructor
  · rintro ⟨hkey, hcurrent, hbound, hdepth⟩
    exact ⟨hkey.trans h.key, hage.symm.trans hcurrent, hbound, by rwa [← h.wornDepth_eq]⟩
  · rintro ⟨hkey, hcurrent, hbound, hdepth⟩
    exact ⟨hkey.trans h.key.symm, hage.trans hcurrent, hbound, by rwa [h.wornDepth_eq]⟩

/-- A sequence of writes is refused exactly if the entry withstands each of them after the number of
those that come before it. -/
theorem refusesAll_iff :
    e.RefusesAll p offers ↔ ∀ n o, offers[n]? = some o → e.Withstands p n o := by
  induction offers generalizing e with
  | nil => simp [RefusesAll]
  | cons first rest ih =>
    show ¬_ ∧ RefusesAll p rest _ ↔ _
    rw [ih]
    -- What the first write leaves is worn once, and so the later writes count one more of `e`.
    constructor
    · rintro ⟨hn, hall⟩ n o ho
      cases n with
      | zero =>
        obtain rfl : first = o := by simpa using ho
        exact not_yields_iff.mp hn
      | succ n =>
        rw [Nat.add_comm, ← (worn_save hn).withstands_iff]
        exact hall n o (by simpa using ho)
    · intro hall
      have hn := not_yields_iff.mpr (hall 0 first rfl)
      refine ⟨hn, fun n o ho => ?_⟩
      rw [(worn_save hn).withstands_iff, Nat.add_comm]
      exact hall (n + 1) o (by simpa using ho)

/-- The move that a sequence of refused writes leaves is the last that one of them had. -/
theorem RefusesAll.move (h : e.RefusesAll p offers) :
    (e.saveAll p offers).move =
      ((offers.map fun o => o.record.move).filter (· ≠ Move.none)).getLastD e.move := by
  induction offers generalizing e with
  | nil => rfl
  | cons o rest ih =>
    obtain ⟨hn, hrest⟩ := h
    have hmove := move_save_of_not_yields hn
    have hih := ih hrest
    rw [hmove] at hih
    show ((e.save p o.key o.generation o.record).saveAll p rest).move = _
    rw [hih, List.map_cons]
    by_cases hnone : o.record.move = Move.none
    · rw [if_pos hnone, List.filter_cons_of_neg (by simpa using hnone)]
    · rw [if_neg hnone, List.filter_cons_of_pos (by simpa using hnone), List.getLastD_cons]

end RefusesAll

end Entry

/-! ## Buckets -/

namespace Bucket

/-- The bucket after a sequence of writes into one slot. -/
def saveAll (p : Replacement) (slot : Slot) (offers : List Offer) (b : Bucket) : Bucket :=
  offers.foldl (fun b o => b.save p o.key o.generation o.record slot) b

section SaveAll

variable (p : Replacement) (offers : List Offer) (b : Bucket) {slot : Slot}

/-- The slot holds what the writes leave of its entry. -/
theorem entry_saveAll_self :
    (b.saveAll p slot offers).entry slot = (b.entry slot).saveAll p offers := by
  induction offers generalizing b with
  | nil => rfl
  | cons o rest ih =>
    show ((b.save p o.key o.generation o.record slot).saveAll p slot rest).entry slot = _
    rw [ih, entry_save_self]
    rfl

/-- Writes into one slot leave the entries of the others. -/
theorem entry_saveAll_of_ne {i : Slot} (hi : i ≠ slot) :
    (b.saveAll p slot offers).entry i = b.entry i := by
  induction offers generalizing b with
  | nil => rfl
  | cons o rest ih => exact (ih _).trans (entry_save_of_ne p o.key o.generation o.record b hi)

variable {p offers b}

/-- A sequence of refused writes leaves the flag word. -/
theorem flags_saveAll_of_refusesAll (h : (b.entry slot).RefusesAll p offers) :
    (b.saveAll p slot offers).flags = b.flags := by
  induction offers generalizing b with
  | nil => rfl
  | cons o rest ih =>
    obtain ⟨hn, hrest⟩ := h
    rw [← entry_save_self] at hrest
    exact (ih hrest).trans (flags_save_of_not_yields hn)

/-- For every bucket, every slot of it and all replacement parameters, whether they are valid or not,
a sequence of writes into the slot that are all refused leaves the key, the stamp, the value and the
evaluation of its entry, the entries of the other slots, and the whole flag word. The move is the last
one that a write of the sequence had, or the old one if none had a move.

The depth stays if the entry is exact, or not above the floor, which is a ply below the threshold of
decay or the smallest storable depth; an unoccupied entry never is above it. In all other cases the
depth has gone down by the number of writes, or to the floor. -/
theorem refused_writes_wear_down (h : (b.entry slot).RefusesAll p offers) :
    let e := b.entry slot
    let b' := b.saveAll p slot offers
    let e' := b'.entry slot
    let floor := max (p.decayThreshold.toInt - 1) Depth.minStorable.toInt
    e'.key = e.key ∧ e'.stamp = e.stamp ∧ e'.value = e.value ∧ e'.eval = e.eval ∧
    (∀ i ≠ slot, b'.entry i = b.entry i) ∧ b'.flags = b.flags ∧
    e'.move = ((offers.map fun o => o.record.move).filter (· ≠ Move.none)).getLastD e.move ∧
    (e.bound = .exact ∨ e.depth.toInt ≤ floor ∨ e.occupied = false →
      e'.depth.toInt = e.depth.toInt) ∧
    (e.bound ≠ .exact ∧ floor < e.depth.toInt →
      e'.depth.toInt = max floor (e.depth.toInt - offers.length)) := by
  intro e b' e' floor
  have he' : e' = e.saveAll p offers := entry_saveAll_self p offers b
  have hw := h.worn
  have hdepth := hw.depth
  rw [← he'] at hw hdepth
  have hfloor : p.decayFloor = floor := rfl
  unfold Entry.wornDepth at hdepth
  rw [hfloor] at hdepth
  refine ⟨hw.key, hw.stamp, hw.value, hw.eval, fun i hi => entry_saveAll_of_ne p offers b hi,
    flags_saveAll_of_refusesAll h, by rw [he', h.move], fun hstays => ?_, fun hwears => ?_⟩
  · -- The byte of an unoccupied entry is zero, which stands for a depth below all storable ones.
    have hstays' : e.bound = .exact ∨ e.depth.toInt ≤ floor := by
      rcases hstays with hexact | hle | hempty
      · exact Or.inl hexact
      · exact Or.inr hle
      · have hzero : e.depthByte.toNat = 0 := by
          by_contra hne
          rw [(Entry.occupied_iff e).mpr hne] at hempty
          cases hempty
        have hmin := Depth.toInt_minStorable
        rw [Entry.toInt_depth, hzero]
        exact Or.inr (by omega)
    rw [hdepth]
    exact if_pos hstays'
  · rw [hdepth]
    exact if_neg (not_or.mpr ⟨hwears.1, Int.not_le.mpr hwears.2⟩)

/-- A record of depth 8 that is not exact, under the default parameters, which let it be worn down to
depth 4, and six writes, each refused by what the ones before it have left. The second is from a node
of the principal variation; the last has no move, and so the move is that of the fifth. -/
theorem refused_writes_wear_down_to_floor :
    let first := Bucket.empty.save .default 9 248 ⟨⟨3⟩, ⟨-7⟩, ⟨8⟩, 30, .upper, false, true⟩ 0
    let b := first.save .default 5 8 ⟨⟨7⟩, ⟨100⟩, ⟨-100⟩, 8, .upper, true, true⟩ 1
    let offer (depth : Depth) (pv : Bool) (move : Move) : Offer :=
      ⟨5, 8, ⟨move, ⟨40000⟩, ⟨1⟩, depth, .lower, pv, false⟩⟩
    let offers := [offer 4 false ⟨1⟩, offer 1 true Move.none, offer 2 false ⟨2⟩,
      offer 1 false Move.none, offer (-2) false ⟨4⟩, offer 0 false Move.none]
    let b' := b.saveAll .default 1 offers
    (b.entry 1).RefusesAll .default offers ∧ (b'.entry 1).depth.toInt = 4 ∧
      (b'.entry 1).move = ⟨4⟩ ∧ (b'.entry 1).value = 100 ∧ b'.entry 0 = b.entry 0 ∧
      b'.flags = b.flags := by
  intro first b offer offers b'
  have h : (b.entry 1).RefusesAll .default offers := by decide
  obtain ⟨-, -, hvalue, -, hothers, hflags, hmove, -, hdepth⟩ := refused_writes_wear_down h
  exact ⟨h, (hdepth ⟨by decide, by decide⟩).trans (by decide), hmove, hvalue.trans (by decide),
    hothers 0 (by decide), hflags⟩

end SaveAll

end Bucket

end Transposition
