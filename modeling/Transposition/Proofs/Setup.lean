import Transposition.Proofs.Clearing
import Transposition.Table.Setup

/-!
# What a create and a resize give

Both ask for the same block and clear the same fresh table (`Table.laidOut`). So a resize is a create
with the parameters that the table has, whatever the table held before (`Table.resize_eq_create`); only
where the block is not granted does it leave a table at all, the one of a single bucket.
-/

namespace Transposition

/-! ## The block -/

/-- A number is at most the next multiple of a unit. -/
theorem le_roundUp (n : Nat) {unit : Nat} (h : 0 < unit) : n ≤ roundUp n unit := by
  have hdiv := Nat.div_add_mod (n + unit - 1) unit
  have hmod := Nat.mod_lt (n + unit - 1) h
  unfold roundUp
  rw [Nat.mul_comm] at hdiv
  omega

/-- A block is had exactly if its size can be asked for and is granted. It is padded to whole pages. -/
theorem Memory.reserve_eq_ok_iff (memory : Memory) (count reserved : Nat) :
    memory.reserve count = .ok reserved ↔
      0 < count * bucketBytes ∧ count * bucketBytes ≤ maxBlock ∧
        reserved = roundUp (count * bucketBytes) largePage ∧ memory.grants reserved = true := by
  have hmax : maxBlock < wordCount := by decide
  unfold reserve
  simp only
  split_ifs with hword hrange hgrant
  · simp only [false_iff]
    omega
  · simp only [false_iff]
    omega
  · rw [Except.ok.injEq]
    constructor
    · rintro rfl
      exact ⟨by omega, by omega, rfl, hgrant⟩
    · rintro ⟨-, -, rfl, -⟩
      rfl
  · simp only [false_iff]
    rintro ⟨-, -, rfl, hgranted⟩
    exact hgrant hgranted

/-- A block holds the buckets that it was asked for. -/
theorem Memory.bytes_le_of_reserve {memory : Memory} {count reserved : Nat}
    (h : memory.reserve count = .ok reserved) :
    count * bucketBytes ≤ maxBlock ∧ count * bucketBytes ≤ reserved := by
  obtain ⟨-, hmax, rfl, -⟩ := (memory.reserve_eq_ok_iff count reserved).mp h
  exact ⟨hmax, le_roundUp _ (by decide)⟩

namespace Table

variable {memory : Memory} {crew : Crew} {params : Replacement} {bytes : UInt64}

/-! ## The fresh table -/

/-- The table of so many empty buckets in a block. -/
def laidOut (params : Replacement) (count reserved : Nat) : Table where
  storage := .block reserved
  buckets := Array.replicate count Bucket.empty
  bucketCount := count
  generation := 0
  params := params

/-- A fresh table with a bucket is sound. -/
theorem sound_laidOut (params : Replacement) {count : Nat} (h : 0 < count) (reserved : Nat) :
    (laidOut params count reserved).Sound :=
  ⟨Array.size_replicate, h⟩

/-- A fresh table is blank. -/
theorem blank_laidOut (params : Replacement) {count : Nat} (h : 0 < count) (reserved : Nat) :
    (laidOut params count reserved).Blank := by
  refine ⟨sound_laidOut params h reserved, fun n b hb => ?_, rfl⟩
  obtain ⟨hn, rfl⟩ := Array.getElem?_eq_some_iff.mp hb
  exact Array.getElem_replicate _

/-- What is reported when a fresh table has been set up for a size in bytes. -/
def setupNotices (crew : Crew) (bytes : UInt64) (t : Table) : List Notice :=
  (t.clear crew).notices ++ if crew.fault? = none then [t.resizeNotice bytes] else []

/-- To clear a fresh table changes nothing, and is stopped as every clear by the crew is. -/
theorem settle_laidOut (crew : Crew) (bytes : UInt64) (params : Replacement) {count : Nat}
    (h : 0 < count) (reserved : Nat) :
    (laidOut params count reserved).settle crew bytes =
      ⟨laidOut params count reserved, (laidOut params count reserved).setupNotices crew bytes,
        crew.fault?⟩ := by
  have htable : ((laidOut params count reserved).clear crew).table = laidOut params count reserved :=
    (blank_laidOut params h reserved).table_clearBy _ _ _
  unfold settle setupNotices
  simp only [fault_clear, htable]
  cases hf : crew.fault? <;> simp

/-! ## Creates and resizes -/

/-- A create gets the block or fails as the request for it does. -/
theorem create_of_valid (hv : params.Valid) (memory : Memory) (crew : Crew) (bytes : UInt64) :
    create memory crew params bytes =
      (memory.reserve (bucketsFor bytes)).map fun reserved =>
        let fresh := laidOut params (bucketsFor bytes) reserved
        ⟨fresh, fresh.setupNotices crew bytes, crew.fault?⟩ := by
  unfold create
  rw [(Replacement.validate_eq_ok_iff params).mpr hv]
  show (memory.reserve (bucketsFor bytes) >>= fun reserved =>
    Except.ok ((laidOut params (bucketsFor bytes) reserved).settle crew bytes)) = _
  simp only [settle_laidOut crew bytes params (bucketsFor_pos bytes)]
  cases memory.reserve (bucketsFor bytes) <;> rfl

/-- The parameters of a created table lie in their ranges. -/
theorem valid_of_create {c : Created} (h : create memory crew params bytes = .ok c) :
    params.Valid := by
  unfold create at h
  cases hv : params.validate with
  | error e =>
    rw [hv] at h
    cases h
  | ok => exact (Replacement.validate_eq_ok_iff params).mp hv

/-- A created table is the fresh one in the block that was had for it, and only the crew can stop its
clear. -/
theorem eq_laidOut_of_create {c : Created} (h : create memory crew params bytes = .ok c) :
    c.fault = crew.fault? ∧ ∃ reserved, memory.reserve (bucketsFor bytes) = .ok reserved ∧
      c.table = laidOut params (bucketsFor bytes) reserved := by
  rw [create_of_valid (valid_of_create h)] at h
  cases hr : memory.reserve (bucketsFor bytes) with
  | error e =>
    rw [hr] at h
    cases h
  | ok reserved =>
    rw [hr] at h
    obtain rfl := Except.ok.inj h
    exact ⟨rfl, reserved, rfl, rfl⟩

/-- A created table is blank. -/
theorem blank_of_create {c : Created} (h : create memory crew params bytes = .ok c) :
    c.table.Blank := by
  obtain ⟨-, reserved, -, heq⟩ := eq_laidOut_of_create h
  rw [heq]
  exact blank_laidOut params (bucketsFor_pos bytes) reserved

/-- A resize gives the fresh table in the block that it gets, or the table of a single bucket. -/
theorem resize_eq (memory : Memory) (crew : Crew) (bytes : UInt64) (t : Table) :
    t.resize memory crew bytes =
      match memory.reserve (bucketsFor bytes) with
      | .error e => ⟨single t.params, .error e, [], none⟩
      | .ok reserved =>
        let fresh := laidOut t.params (bucketsFor bytes) reserved
        ⟨fresh, .ok (), fresh.setupNotices crew bytes, crew.fault?⟩ := by
  cases hr : memory.reserve (bucketsFor bytes) with
  | error e =>
    simp only [resize, hr]
    rfl
  | ok reserved =>
    simp only [resize, hr]
    show Resized.mk ((laidOut t.params (bucketsFor bytes) reserved).settle crew bytes).table (.ok ())
      ((laidOut t.params (bucketsFor bytes) reserved).settle crew bytes).notices
      ((laidOut t.params (bucketsFor bytes) reserved).settle crew bytes).fault = _
    rw [settle_laidOut crew bytes t.params (bucketsFor_pos bytes)]

/-- A resize is a create with the parameters of the table. Nothing else of the table matters. Whether
they get their block and which table they make does not depend on their crews, and what stops their
clears depends on nothing else. -/
theorem resize_eq_create {t : Table} (hv : t.params.Valid) (memory : Memory) (crew crew' : Crew)
    (bytes : UInt64) :
    t.resize memory crew bytes =
      match create memory crew' t.params bytes with
      | .error e => ⟨single t.params, .error e, [], none⟩
      | .ok c => ⟨c.table, .ok (), c.table.setupNotices crew bytes, crew.fault?⟩ := by
  rw [resize_eq, create_of_valid hv]
  cases memory.reserve (bucketsFor bytes) <;> rfl

end Table

end Transposition
