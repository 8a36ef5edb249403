import Mathlib.Algebra.BigOperators.Group.List.Defs
import Mathlib.Algebra.GroupWithZero.Nat
import Transposition.Proofs.Provenance

/-!
# What the occupancy estimate counts

The estimate of the occupancy counts entries by the age in their stamps. In a run whose writes all pass
the current generation, this age is a number of searches: those that were started since the entry was
last overwritten (`History.searchesSince`), modulo the 32 generations that a stamp tells apart
(`Run.age_eq`). Refused writes do not count as overwriting, so they do not make an entry younger; and
how long a writer was kept plays no part.

`Run.hashfull_eq_and_bounds` states the estimate in these terms, for runs of any length, with what
follows for its range.
-/

namespace Transposition

/-! ## Ages in searches -/

/-- A stamp that was made some searches ago has aged by them, up to whole rounds of the count of
generations. -/
theorem Stamp.age_make {older newer : Nat} {made now : UInt8} (hm : made.toNat = 8 * older % 256)
    (hn : now.toNat = 8 * (newer + older) % 256) (pv : Bool) (b : Bound) :
    (make made pv b).age now = newer % 32 * 8 := by
  have hbits := b.toBits_lt
  have hbyte : (make made pv b).byte.toNat / 8 = made.toNat / 8 := by
    rw [toNat_make (by omega)]
    split <;> omega
  rw [age_eq _ _ (by omega), hbyte, hm, hn]
  omega

/-- The number of searches that were started since the entry at a place was last overwritten. -/
def History.searchesSince (place : Writer) (h : History) : Nat :=
  History.searches (h.takeWhile fun event => !event.hits place .overwrite)

/-- If no write has overwritten the entry since some event, and that event has, then the searches
since the last overwrite are those that came after the event. -/
theorem History.searchesSince_append {place : Writer} {newer older : History} {event : Event}
    (hlast : newer.tally place .overwrite = 0) (hit : event.hits place .overwrite = true) :
    History.searchesSince place (newer ++ event :: older) = newer.searches := by
  have hnewer : ∀ e ∈ newer, (!e.hits place .overwrite) = true := by
    intro e he
    have hnone := List.countP_eq_zero.mp hlast e he
    simpa using hnone
  have hevent : (!event.hits place .overwrite) = false := by rw [hit]; rfl
  unfold searchesSince
  rw [List.takeWhile_append_of_pos hnewer, List.takeWhile_cons, hevent]
  simp

/-- Every write of a history has passed the generation that the table had. -/
def History.Current (checks : Checks) (start : Table) (h : History) : Prop :=
  ∀ (t : Table) (w : Write) (older : History),
    .wrote w :: older <:+ h → Run checks start t older → w.generation = t.generation

variable {checks : Checks} {start t : Table} {h : History}

/-- What happened up to some point of a run is a run. -/
theorem Run.exists_of_suffix (hr : Run checks start t h) {older : History} (hs : older <:+ h) :
    ∃ t', Run checks start t' older := by
  induction hr with
  | start =>
    rw [List.suffix_nil.mp hs]
    exact ⟨_, .start⟩
  | search hrun ih =>
    rcases List.suffix_cons_iff.mp hs with rfl | hs
    · exact ⟨_, .search hrun⟩
    · exact ih hs
  | probe hrun answer ih =>
    rcases List.suffix_cons_iff.mp hs with rfl | hs
    · exact ⟨_, .probe hrun answer⟩
    · exact ih hs
  | write hrun held through bucket verdict wrote ih =>
    rcases List.suffix_cons_iff.mp hs with rfl | hs
    · exact ⟨_, .write hrun held through bucket verdict wrote⟩
    · exact ih hs

/-- In a run from a blank table whose writes pass the current generation, the age of a record is the
number of searches since it was last overwritten, in steps of eight and modulo 32. -/
theorem Run.age_eq (h₀ : start.Blank) (hr : Run checks start t h) (hc : h.Current checks start)
    {number : Nat} {b : Bucket} (hb : t.buckets[number]? = some b) {i : Slot}
    (hi : (b.entry i).occupied = true) :
    (b.entry i).age t.generation = h.searchesSince ⟨number, i⟩ % 32 * 8 := by
  obtain ⟨w, newer, older, hsplit, ho⟩ :=
    (hr.holds (accounted_invariant start.params) h₀ hb i).2 hi
  -- The generation of the write counts the searches before it, and that of the table all of them.
  have hsuffix : .wrote w :: older <:+ h := by
    rw [hsplit]
    exact List.suffix_append newer _
  obtain ⟨t', hr'⟩ := hr.exists_of_suffix ((List.suffix_cons _ older).trans hsuffix)
  have hmade : w.generation.toNat = 8 * History.searches older % 256 := by
    rw [hc t' w older hsuffix hr']
    exact hr'.generation_eq h₀
  have hsearches : h.searches = newer.searches + History.searches older := by
    rw [hsplit]
    unfold History.searches
    rw [List.count_append, List.count_cons_of_ne (by simp)]
  have hnow := hr.generation_eq h₀
  rw [hsearches] at hnow
  have hhit : (Event.wrote w).hits ⟨number, i⟩ .overwrite = true := by
    rw [← ho.writer, Event.hits_wrote_self, ho.verdict]
    rfl
  rw [hsplit, History.searchesSince_append ho.last hhit]
  unfold Entry.age
  rw [ho.stamp]
  exact Stamp.age_make hmade hnow _ _

/-! ## The entries that are looked at -/

/-- A share per thousand is at most 1000, and 1000 exactly if it is the whole. -/
theorem perMille_le_and_eq_iff {part whole : Nat} (hpos : 0 < whole) (hle : part ≤ whole) :
    1000 * part / whole ≤ 1000 ∧ (1000 * part / whole = 1000 ↔ part = whole) := by
  refine ⟨?_, fun hfull => ?_, fun hall => ?_⟩
  · calc 1000 * part / whole ≤ 1000 * whole / whole :=
          Nat.div_le_div_right (Nat.mul_le_mul_left _ hle)
      _ = 1000 := Nat.mul_div_cancel _ hpos
  · have hmul := Nat.div_mul_le_self (1000 * part) whole
    rw [hfull] at hmul
    omega
  · rw [hall, Nat.mul_div_cancel _ hpos]

namespace Table

/-- The entries that the estimate of the occupancy looks at, each with its place: those of the first
`hashfullSample` buckets, or of all if there are fewer. -/
def sampled (t : Table) : List (Writer × Entry) :=
  (t.buckets.extract 0 (min hashfullSample t.bucketCount)).toList.zipIdx.flatMap
    fun (b, number) => slots.map fun i => (⟨number, i⟩, b.entry i)

/-- The entries that are looked at stand where their places say. -/
theorem of_mem_sampled {t : Table} {place : Writer} {e : Entry} (hm : (place, e) ∈ t.sampled) :
    ∃ b, t.buckets[place.bucket]? = some b ∧ e = b.entry place.slot := by
  obtain ⟨⟨b, number⟩, hb, he⟩ := List.mem_flatMap.mp hm
  obtain ⟨i, -, heq⟩ := List.mem_map.mp he
  obtain ⟨rfl, rfl⟩ := Prod.mk.inj heq
  refine ⟨b, ?_, rfl⟩
  have hget := List.mem_zipIdx_iff_getElem?.mp hb
  rw [Array.getElem?_toList] at hget
  have hlt := (Array.getElem?_eq_some_iff.mp hget).1
  rw [Array.getElem?_extract] at hget
  simpa using (Option.ite_none_right_eq_some.mp hget).2

/-- The number of entries that are looked at. -/
theorem Sound.length_sampled {t : Table} (h : t.Sound) :
    t.sampled.length = entryCount * min hashfullSample t.bucketCount := by
  have hslots : ∀ x : Bucket × Nat,
      (slots.map fun i => ((⟨x.2, i⟩ : Writer), x.1.entry i)).length = entryCount :=
    fun _ => List.length_map _
  have hbuckets : (t.buckets.extract 0 (min hashfullSample t.bucketCount)).size =
      min hashfullSample t.bucketCount := by
    rw [Array.size_extract, h.size, Nat.min_eq_left (Nat.min_le_right _ _), Nat.sub_zero]
  unfold sampled
  rw [List.length_flatMap]
  simp only [hslots]
  rw [List.map_const', List.sum_replicate_nat, List.length_zipIdx, Array.length_toList, hbuckets,
    Nat.mul_comm]

/-- What is counted of the entries that are looked at can be counted bucket by bucket. -/
theorem countP_sampled (f : Entry → Bool) (t : Table) :
    (t.sampled.countP fun x => f x.2) =
      ((t.buckets.extract 0 (min hashfullSample t.bucketCount)).toList.map
        fun b => slots.countP fun i => f (b.entry i)).sum := by
  unfold sampled
  rw [List.countP_flatMap]
  -- The places play no part.
  conv_rhs => rw [← List.zipIdx_map_fst 0 (t.buckets.extract 0 _).toList, List.map_map]
  congr 2

/-- The estimate counts, of the entries that it looks at, those that are occupied and not older than
the limit. -/
theorem Sound.hashfull_eq {t : Table} (h : t.Sound) (maxAge : Option UInt8) :
    t.hashfull maxAge = .ok (1000 * (t.sampled.countP fun x => x.2.occupied &&
      decide (x.2.age t.generation ≤ (maxAge.getD 0).toNat * 8)) /
        (entryCount * min hashfullSample t.bucketCount)) := by
  have hpos := h.pos
  have hsample : min hashfullSample t.bucketCount * entryCount ≠ 0 :=
    Nat.mul_ne_zero (by unfold hashfullSample; omega) (by decide)
  have hcount : (t.sampled.countP fun x => x.2.occupied &&
      decide (x.2.age t.generation ≤ (maxAge.getD 0).toNat * 8)) =
        ((t.buckets.extract 0 (min hashfullSample t.bucketCount)).toList.map
          (Bucket.countRecent t.generation ((maxAge.getD 0).toNat * 8))).sum :=
    countP_sampled
      (fun e => e.occupied && decide (e.age t.generation ≤ (maxAge.getD 0).toNat * 8)) t
  have hlimit : (maxAge.getD 0).toNat <<< generationBits = (maxAge.getD 0).toNat * 8 :=
    Nat.shiftLeft_eq _ _
  unfold hashfull
  simp only [if_neg hsample]
  rw [hcount, hlimit, ← List.sum_eq_foldl, Nat.mul_comm 1000, Nat.mul_comm entryCount]

/-- Under any limit on the age the estimate is at most 1000, and it does not decrease with the limit. -/
theorem Sound.exists_hashfull_le {t : Table} (h : t.Sound) {maxAge maxAge' : Option UInt8}
    (hages : maxAge.getD 0 ≤ maxAge'.getD 0) :
    ∃ n n', t.hashfull maxAge = .ok n ∧ t.hashfull maxAge' = .ok n' ∧ n ≤ n' ∧ n' ≤ 1000 := by
  refine ⟨_, _, h.hashfull_eq maxAge, h.hashfull_eq maxAge', ?_, ?_⟩
  · apply Nat.div_le_div_right (Nat.mul_le_mul_left _ (List.countP_mono_left fun x _ hx => ?_))
    rw [Bool.and_eq_true, decide_eq_true_eq] at hx ⊢
    have hle := UInt8.le_iff_toNat_le.mp hages
    exact ⟨hx.1, by omega⟩
  · rw [← h.length_sampled]
    refine (perMille_le_and_eq_iff ?_ List.countP_le_length).1
    have hpos := h.pos
    rw [h.length_sampled]
    exact Nat.mul_pos (by decide) (by unfold hashfullSample; omega)

/-- No entry of a blank table counts. -/
theorem Blank.hashfull_eq {t : Table} (h : t.Blank) (maxAge : Option UInt8) :
    t.hashfull maxAge = .ok 0 := by
  have hnone : (t.sampled.countP fun x => x.2.occupied &&
      decide (x.2.age t.generation ≤ (maxAge.getD 0).toNat * 8)) = 0 := by
    apply List.countP_eq_zero.mpr
    rintro ⟨place, e⟩ hm
    obtain ⟨b, hb, rfl⟩ := of_mem_sampled hm
    rw [h.empty _ b hb, Bucket.entry_empty]
    simp [Entry.occupied, Entry.empty]
  rw [h.toSound.hashfull_eq, hnone, Nat.mul_zero, Nat.zero_div]

end Table

/-! ## Runs in the current generation -/

/-- The entries that the estimate counts are those that were last overwritten at most so many searches
ago, as the age of an occupied entry is its searches. -/
theorem Run.hashfull_eq (h₀ : start.Blank) (hr : Run checks start t h) (hc : h.Current checks start)
    (maxAge : Option UInt8) :
    t.hashfull maxAge = .ok (1000 * (t.sampled.countP fun x => x.2.occupied &&
      decide (h.searchesSince x.1 % 32 ≤ (maxAge.getD 0).toNat)) /
        (entryCount * min Table.hashfullSample t.bucketCount)) := by
  rw [(hr.sound h₀.toSound).hashfull_eq maxAge]
  have hcounts : (t.sampled.countP fun x => x.2.occupied &&
      decide (x.2.age t.generation ≤ (maxAge.getD 0).toNat * 8)) =
        t.sampled.countP fun x => x.2.occupied &&
          decide (h.searchesSince x.1 % 32 ≤ (maxAge.getD 0).toNat) := by
    apply List.countP_congr
    rintro ⟨place, e⟩ hm
    obtain ⟨b, hb, rfl⟩ := Table.of_mem_sampled hm
    simp only [Bool.and_eq_true, decide_eq_true_eq]
    apply and_congr_right
    intro ho
    have hage : (b.entry place.slot).age t.generation = h.searchesSince place % 32 * 8 :=
      hr.age_eq h₀ hc hb ho
    omega
  rw [hcounts]

/-- In every state of a run from a blank table whose writes pass the current generation, be it through
fresh writers or kept ones, the estimate is the number, per thousand entries looked at, of the occupied
ones that were last overwritten at most `maxAge` searches ago, modulo 32; without a limit, in the
current search. It is at most 1000, and 1000 exactly if all entries looked at count; it does not
decrease with the limit; and from the limit 31 on it counts every occupied entry. -/
theorem Run.hashfull_eq_and_bounds (h₀ : start.Blank) (hr : Run checks start t h)
    (hc : h.Current checks start) :
    let size := entryCount * min Table.hashfullSample t.bucketCount
    let counted (maxAge : Option UInt8) := t.sampled.countP fun x =>
      x.2.occupied && decide (h.searchesSince x.1 % 32 ≤ (maxAge.getD 0).toNat)
    t.sampled.length = size ∧
      (∀ maxAge, t.hashfull maxAge = .ok (1000 * counted maxAge / size)) ∧
      (∀ maxAge n, t.hashfull maxAge = .ok n → n ≤ 1000 ∧ (n = 1000 ↔ counted maxAge = size)) ∧
      (∀ maxAge maxAge' n n', maxAge.getD 0 ≤ maxAge'.getD 0 → t.hashfull maxAge = .ok n →
        t.hashfull maxAge' = .ok n' → n ≤ n') ∧
      ∀ maxAge, 31 ≤ (maxAge.getD 0).toNat →
        counted maxAge = t.sampled.countP fun x => x.2.occupied := by
  intro size counted
  have hsound := hr.sound h₀.toSound
  have hlength : t.sampled.length = size := hsound.length_sampled
  have hpos : 0 < size := by
    have hbuckets := hsound.pos
    exact Nat.mul_pos (by decide) (by unfold Table.hashfullSample; omega)
  have hestimate : ∀ maxAge, t.hashfull maxAge = .ok (1000 * counted maxAge / size) :=
    hr.hashfull_eq h₀ hc
  have hle : ∀ maxAge, counted maxAge ≤ size := fun maxAge => by
    rw [← hlength]
    exact List.countP_le_length
  refine ⟨hlength, hestimate, ?_, ?_, ?_⟩
  · intro maxAge n hn
    rw [hestimate, Except.ok.injEq] at hn
    subst hn
    exact perMille_le_and_eq_iff hpos (hle maxAge)
  · intro maxAge maxAge' n n' hages hn hn'
    rw [hestimate, Except.ok.injEq] at hn hn'
    subst hn hn'
    have hmono : counted maxAge ≤ counted maxAge' := by
      apply List.countP_mono_left
      intro x _ hx
      rw [Bool.and_eq_true, decide_eq_true_eq] at hx ⊢
      exact ⟨hx.1, Nat.le_trans hx.2 (UInt8.le_iff_toNat_le.mp hages)⟩
    exact Nat.div_le_div_right (Nat.mul_le_mul_left _ hmono)
  · intro maxAge hage
    apply List.countP_congr
    intro x _
    have hmod : h.searchesSince x.1 % 32 < 32 := Nat.mod_lt _ (by decide)
    rw [Bool.and_eq_true, decide_eq_true_eq]
    exact ⟨And.left, fun ho => ⟨ho, by omega⟩⟩

/-- Several searches can be started one after the other, and pass no wrong generation. -/
theorem Run.searches_current (hr : Run checks start t h) (hc : h.Current checks start)
    (times : Nat) :
    Run checks start (times.repeat Table.newSearch t) (List.replicate times .searched ++ h) ∧
      History.Current checks start (List.replicate times .searched ++ h) := by
  induction times with
  | zero => exact ⟨hr, hc⟩
  | succ n ih =>
    refine ⟨.search ih.1, fun t' w older hs hr' => ?_⟩
    rcases List.suffix_cons_iff.mp hs with heq | hs
    · cases heq
    · exact ih.2 t' w older hs hr'

/-- A record that was written through a writer of before the search, and 33 searches ago: the count of
generations has come round, so it counts as one search old, and is one of the three entries that are
looked at. -/
theorem hashfull_eq_and_bounds_after_round :
    ∃ (t : Table) (h : History), (Table.single .default).Blank ∧
      Run .on (Table.single .default) t h ∧ h.Current .on (Table.single .default) ∧
      h.searchesSince ⟨0, 0⟩ = 33 ∧ t.hashfull none = .ok 0 ∧ t.hashfull (some 1) = .ok 333 := by
  have h₀ := Table.blank_single .default
  have hprobed : Run .on (Table.single .default) _ [.probed 5 (.miss 0 0)] := .probe .start rfl
  have hwrote : Run .on (Table.single .default) _
      [.wrote ⟨5, ⟨0, 0⟩, 5, 8, .failedHigh Move.none 3, .overwrite⟩, .searched,
        .probed 5 (.miss 0 0)] :=
    .write (p := .miss 0 0) (.search hprobed) (by simp) rfl rfl rfl rfl
  have hcurrent : History.Current .on (Table.single .default)
      [.wrote ⟨5, ⟨0, 0⟩, 5, 8, .failedHigh Move.none 3, .overwrite⟩, .searched,
        .probed 5 (.miss 0 0)] := by
    intro t' w' older hs hr'
    simp only [List.suffix_cons_iff, List.cons.injEq, Event.wrote.injEq, reduceCtorEq, false_and,
      List.suffix_nil, or_false, List.cons_ne_nil] at hs
    obtain ⟨rfl, rfl⟩ := hs
    rw [← UInt8.toNat_inj, hr'.generation_eq h₀]
    rfl
  obtain ⟨hr, hc⟩ := hwrote.searches_current hcurrent 33
  obtain ⟨-, hestimate, -⟩ := hr.hashfull_eq_and_bounds h₀ hc
  refine ⟨_, _, h₀, hr, hc, rfl, ?_, ?_⟩
  · rw [hestimate]
    rfl
  · rw [hestimate]
    rfl

end Transposition
