import Mathlib.Algebra.Group.Nat.Defs
import Mathlib.Order.Bounds.Defs
import Transposition.Proofs.Setup

/-!
# The sizes that a table asks for and gets

A size in bytes goes through four roundings and limits before it is a table: megabytes are capped at
the largest word, bytes are rounded down to whole buckets but to one at least, the bytes of the
buckets are held against the largest block of its alignment, and what passes is rounded up to whole
large pages. `Memory.reserve_bucketsFor` puts them together: the bytes of the buckets fit a word and
are not zero, so the largest block is the only limit that is ever met, and below it the sum in the
last rounding does not leave the words.

The allocator is asked for one size and for no other, and its answer to that size decides
(`Table.SizedBy`). `Table.sizes_are_exact` states it of creates and resizes alike.
-/

namespace Transposition

/-! ## Roundings -/

/-- The padded size of a block is the least multiple of the unit that is not below it. -/
theorem isLeast_roundUp (n : Nat) {unit : Nat} (h : 0 < unit) :
    IsLeast {m | unit ∣ m ∧ n ≤ m} (roundUp n unit) := by
  refine ⟨⟨Nat.dvd_mul_left unit _, le_roundUp n h⟩, ?_⟩
  rintro _ ⟨⟨k, rfl⟩, hle⟩
  have hdiv : (n + unit - 1) / unit ≤ k := by
    apply Nat.le_of_lt_succ
    rw [Nat.div_lt_iff_lt_mul h, Nat.succ_mul, Nat.mul_comm k]
    omega
  calc roundUp n unit = (n + unit - 1) / unit * unit := rfl
    _ ≤ k * unit := Nat.mul_le_mul_right unit hdiv
    _ = unit * k := Nat.mul_comm k unit

/-- The bytes of the whole buckets in a size, of which there is one at least. -/
def blockBytes (bytes : UInt64) : Nat := bucketBytes * max 1 (bytes.toNat / bucketBytes)

/-- The bytes of the buckets of a size. -/
theorem bucketsFor_mul_bucketBytes (bytes : UInt64) :
    bucketsFor bytes * bucketBytes = blockBytes bytes :=
  Nat.mul_comm _ _

/-- The bytes of the buckets of a size are not zero and fit a word. -/
theorem blockBytes_bounds (bytes : UInt64) : 0 < blockBytes bytes ∧ blockBytes bytes < 2^64 := by
  have hlt := bytes.toNat_lt
  have hunit : bucketBytes = 32 := rfl
  unfold blockBytes
  rw [hunit]
  omega

/-- What is asked for the buckets of a size: nothing if the largest block is too small for them, and
else the padded block, whose answer is final. -/
theorem Memory.reserve_bucketsFor (memory : Memory) (bytes : UInt64) :
    memory.reserve (bucketsFor bytes) =
      if maxBlock < blockBytes bytes then .error (.layout (blockBytes bytes))
      else if memory.grants (roundUp (blockBytes bytes) largePage) then
        .ok (roundUp (blockBytes bytes) largePage)
      else .error (.outOfMemory (roundUp (blockBytes bytes) largePage)) := by
  obtain ⟨hpos, hlt⟩ := blockBytes_bounds bytes
  have hword : ¬wordCount ≤ blockBytes bytes := Nat.not_le_of_lt hlt
  have hzero : blockBytes bytes ≠ 0 := Nat.ne_of_gt hpos
  unfold reserve
  simp only [bucketsFor_mul_bucketBytes, if_neg hword, hzero, false_or]

namespace Table

/-! ## Outcomes -/

/-- What a create or a resize comes to with every allocator, when the buckets take `block` bytes and
`padded` with what fills up the last large page. The three conditions exclude each other, and one of
them holds. -/
structure SizedBy (block padded : Nat) (outcome : Memory → Except SetupError Table) : Prop where
  /-- The block is refused as such exactly if it is above the largest one. -/
  layout : ∀ memory, outcome memory = .error (.layout block) ↔ 2^63 - 2^21 < block
  /-- Else it fails exactly if the allocator refuses the padded size. -/
  outOfMemory : ∀ memory, outcome memory = .error (.outOfMemory padded) ↔
    block ≤ 2^63 - 2^21 ∧ memory.grants padded = false
  /-- And it gives a table exactly if the allocator grants it: one that uses the bytes of its buckets
  and holds the padded size. -/
  granted : ∀ memory,
    (∃ t, outcome memory = .ok t ∧ t.sizeBytes = block ∧ t.reservedBytes = padded) ↔
      block ≤ 2^63 - 2^21 ∧ memory.grants padded = true
  /-- The allocator is asked for no other size. -/
  asked : ∀ memory memory', memory.grants padded = memory'.grants padded →
    outcome memory = outcome memory'

/-- An outcome that follows the request for the block is sized by it. -/
theorem sizedBy_of_reserve {bytes : UInt64} {outcome : Memory → Except SetupError Table}
    (params : Replacement) (h : ∀ memory, outcome memory =
      (memory.reserve (bucketsFor bytes)).map (laidOut params (bucketsFor bytes))) :
    SizedBy (blockBytes bytes) (roundUp (blockBytes bytes) largePage) outcome := by
  have hmax : maxBlock = 2^63 - 2^21 := rfl
  have hsize (reserved : Nat) : (laidOut params (bucketsFor bytes) reserved).sizeBytes =
      blockBytes bytes := bucketsFor_mul_bucketBytes bytes
  have hreserved (reserved : Nat) : (laidOut params (bucketsFor bytes) reserved).reservedBytes =
      reserved := rfl
  by_cases hblock : 2^63 - 2^21 < blockBytes bytes
  · have hrefused (memory : Memory) : outcome memory = .error (.layout (blockBytes bytes)) := by
      rw [h, memory.reserve_bucketsFor, hmax, if_pos hblock]
      rfl
    have hnot : ¬blockBytes bytes ≤ 2^63 - 2^21 := Nat.not_le_of_lt hblock
    refine ⟨fun memory => ?_, fun memory => ?_, fun memory => ?_, fun memory memory' _ => ?_⟩
    · exact iff_of_true (hrefused memory) hblock
    · rw [hrefused]
      exact iff_of_false (fun h => by cases h) fun h => hnot h.1
    · rw [hrefused]
      exact iff_of_false (fun h => by cases h.choose_spec.1) fun h => hnot h.1
    · rw [hrefused, hrefused]
  · have hle : blockBytes bytes ≤ 2^63 - 2^21 := Nat.le_of_not_lt hblock
    have hgranted {memory : Memory}
        (hgrants : memory.grants (roundUp (blockBytes bytes) largePage) = true) :
        outcome memory =
          .ok (laidOut params (bucketsFor bytes) (roundUp (blockBytes bytes) largePage)) := by
      rw [h, memory.reserve_bucketsFor, hmax, if_neg hblock, if_pos hgrants]
      rfl
    have hrefused {memory : Memory}
        (hgrants : memory.grants (roundUp (blockBytes bytes) largePage) = false) :
        outcome memory = .error (.outOfMemory (roundUp (blockBytes bytes) largePage)) := by
      rw [h, memory.reserve_bucketsFor, hmax, if_neg hblock, hgrants]
      rfl
    refine ⟨fun memory => ?_, fun memory => ?_, fun memory => ?_, fun memory memory' heq => ?_⟩
    · refine iff_of_false (fun heq => ?_) hblock
      cases hgrants : memory.grants (roundUp (blockBytes bytes) largePage) with
      | false =>
        rw [hrefused hgrants] at heq
        cases heq
      | true =>
        rw [hgranted hgrants] at heq
        cases heq
    · cases hgrants : memory.grants (roundUp (blockBytes bytes) largePage) with
      | false => exact iff_of_true (hrefused hgrants) ⟨hle, rfl⟩
      | true =>
        rw [hgranted hgrants]
        exact iff_of_false (fun heq => by cases heq) fun h => Bool.noConfusion h.2
    · cases hgrants : memory.grants (roundUp (blockBytes bytes) largePage) with
      | false =>
        rw [hrefused hgrants]
        exact iff_of_false (fun h => by cases h.choose_spec.1) fun h => Bool.noConfusion h.2
      | true => exact iff_of_true ⟨_, hgranted hgrants, hsize _, hreserved _⟩ ⟨hle, rfl⟩
    · cases hgrants : memory.grants (roundUp (blockBytes bytes) largePage) with
      | false => rw [hrefused hgrants, hrefused (heq ▸ hgrants)]
      | true => rw [hgranted hgrants, hgranted (heq ▸ hgrants)]

/-! ## Creates and resizes -/

/-- The first parameter that is out of range is reported, whatever else is asked for. -/
theorem create_of_first_out_of_range (memory : Memory) (crew : Crew) {params : Replacement}
    (bytes : UInt64) {p : Parameter} {earlier later : List Parameter}
    (horder : Parameter.all = earlier ++ p :: later)
    (hearlier : ∀ q ∈ earlier, q.Accepts (params.get q)) (hp : ¬p.Accepts (params.get p)) :
    create memory crew params bytes = .error (.parameter ⟨p, params.get p⟩) := by
  have hvalidate : params.validate = .error ⟨p, params.get p⟩ :=
    (Replacement.validate_eq_error_iff params _).mpr ⟨earlier, p, later, horder, hearlier, hp, rfl⟩
  unfold create
  rw [hvalidate]
  rfl

/-- For every size, the bytes of its buckets are the largest multiple of 32 in it, or 32, and they fit
a word; the padded size is the least multiple of `2^21` that is not below them, and where it is asked
for, the sum by which it is rounded up stays below `2^63`. With valid parameters a create of that size,
and a resize of any table to it, are sized by the two. A size in megabytes is the product, capped at
the largest word.

A create with a parameter out of range reports the first of them, and asks for nothing. -/
theorem sizes_are_exact (crew : Crew) (bytes : UInt64) :
    let block := 32 * max 1 (bytes.toNat / 32)
    ∃ padded, IsLeast {n | 2^21 ∣ n ∧ block ≤ n} padded ∧ block ≤ padded ∧
      (0 < block ∧ block < 2^64 ∧ (block ≤ 2^63 - 2^21 → block + (2^21 - 1) < 2^63)) ∧
      (∀ params : Replacement, params.Valid →
        SizedBy block padded fun memory => (create memory crew params bytes).map (·.1)) ∧
      (∀ t : Table, SizedBy block padded fun memory =>
        (t.resize memory crew bytes).outcome.map fun _ => (t.resize memory crew bytes).table) ∧
      (∀ megabytes : UInt64, bytes.toNat = min (megabytes.toNat * 2^20) (2^64 - 1) →
        ∀ memory, (∀ params, createMegabytes memory crew params megabytes =
          create memory crew params bytes) ∧
          ∀ t : Table, t.resizeMegabytes memory crew megabytes = t.resize memory crew bytes) ∧
      ∀ (memory : Memory) (params : Replacement) (earlier : List Parameter) (p : Parameter)
        (later : List Parameter),
        [.depthSlack, .decayThreshold, .ageWeight] = earlier ++ p :: later →
        (∀ q ∈ earlier, q.Accepts (params.get q)) → ¬p.Accepts (params.get p) →
        create memory crew params bytes = .error (.parameter ⟨p, params.get p⟩) := by
  intro block
  have hleast := isLeast_roundUp block (by decide : 0 < 2^21)
  have hbounds : 0 < block ∧ block < 2^64 := blockBytes_bounds bytes
  refine ⟨_, hleast, hleast.1.2, ⟨hbounds.1, hbounds.2, fun hle => by omega⟩, ?_, ?_, ?_, ?_⟩
  · intro params hv
    apply sizedBy_of_reserve params
    intro memory
    rw [create_of_valid hv]
    cases memory.reserve (bucketsFor bytes) <;> rfl
  · intro t
    apply sizedBy_of_reserve t.params
    intro memory
    rw [resize_eq]
    cases memory.reserve (bucketsFor bytes) <;> rfl
  · intro megabytes hbytes memory
    have heq : bytesOfMegabytes megabytes = bytes := by
      rw [← UInt64.toNat_inj, toNat_bytesOfMegabytes, hbytes]
      rfl
    unfold createMegabytes resizeMegabytes
    rw [heq]
    exact ⟨fun _ => rfl, fun _ => rfl⟩
  · intro memory params earlier p later horder hearlier hp
    exact create_of_first_out_of_range memory crew bytes horder hearlier hp

/-- At the limit: the largest block, asked for in bytes that are no whole number of buckets, is what
an allocator is asked for, since it is a whole number of pages; one bucket more is refused as such, and
so is the size in megabytes that is capped. Parameters that are out of range come before the size. -/
theorem sizes_are_exact_at_limit :
    let memory := Memory.below (2^52)
    let wrong : Replacement := ⟨0, 256, -1⟩
    (Replacement.default.Valid ∧ ¬wrong.Valid) ∧
      (create memory .single .default (UInt64.ofNat (2^63 - 2^21 + 31))).map (·.1) =
        .error (.outOfMemory (2^63 - 2^21)) ∧
      (create memory .single .default (UInt64.ofNat (2^63 - 2^21 + 32))).map (·.1) =
        .error (.layout (2^63 - 2^21 + 32)) ∧
      (createMegabytes memory .single .default (UInt64.ofNat (2^44))).map (·.1) =
        .error (.layout (2^64 - 32)) ∧
      create memory .single wrong (UInt64.ofNat (2^63 - 2^21 + 32)) =
        .error (.parameter ⟨.decayThreshold, 256⟩) := by
  intro memory wrong
  have hv : Replacement.default.Valid := by decide
  obtain ⟨padded, hleast, -, -, hcreate, -⟩ :=
    sizes_are_exact .single (UInt64.ofNat (2^63 - 2^21 + 31))
  obtain ⟨_, -, -, -, hcreate', -, -, hwrong⟩ :=
    sizes_are_exact .single (UInt64.ofNat (2^63 - 2^21 + 32))
  obtain ⟨_, -, -, -, hcapped, -, hmegabytes, -⟩ := sizes_are_exact .single (UInt64.ofNat (2^64 - 1))
  have hpadded : padded = 2^63 - 2^21 := by
    refine Nat.le_antisymm (hleast.2 ⟨by decide, by decide⟩) ?_
    have hle := hleast.1.2
    have hblock : 32 * max 1 ((UInt64.ofNat (2^63 - 2^21 + 31)).toNat / 32) = 2^63 - 2^21 := by
      decide
    rwa [hblock] at hle
  subst hpadded
  refine ⟨⟨hv, by decide⟩, ?_, ?_, ?_, ?_⟩
  · exact ((hcreate .default hv).outOfMemory memory).mpr ⟨by decide, by decide⟩
  · exact ((hcreate' .default hv).layout memory).mpr (by decide)
  · rw [(hmegabytes (UInt64.ofNat (2^44)) (by decide) memory).1 .default]
    exact ((hcapped .default hv).layout memory).mpr (by decide)
  · exact hwrong memory wrong [.depthSlack] .decayThreshold [.ageWeight] rfl (by decide) (by decide)

end Table

end Transposition
