import Transposition.Proofs.ReadBack

/-!
# What a stopped write leaves behind

With checks on, a write can be stopped at two points. The arguments are looked at before anything is
stored, and the scores on the way to an overwrite, when the move has been stored already. So a write
that is stopped by its generation or its depth leaves the table as it was, and one that is stopped by a
score leaves it so but for the move of the entry that it was aimed at
(`Table.stopped_write_leaves_all_but_move`). That move then stands under the key of the old record,
which can be another position (`Session.exists_move_of_stopped_write`).
-/

namespace Transposition

variable {checks : Checks} {generation : UInt8} {r : Record} {fault : Fault}

namespace Entry

/-- The faults that the arguments of a write can raise. -/
theorem eq_of_argumentFault? (h : argumentFault? checks generation r = some fault) :
    fault = .generationLowBits (lowBits generation) ∨ fault = .depthNotStorable r.depth := by
  unfold argumentFault? at h
  split at h
  · cases h
  · split at h
    · exact Or.inl (Option.some.inj h).symm
    · split at h
      · exact Or.inr (Option.some.inj h).symm
      · cases h

/-- The faults that the scores of a write can raise. -/
theorem eq_of_scoreFault? (h : scoreFault? checks r = some fault) :
    fault = .valueDoesNotFit r.value ∨ fault = .evalDoesNotFit r.eval := by
  unfold scoreFault? at h
  split at h
  · cases h
  · split at h
    · exact Or.inl (Option.some.inj h).symm
    · split at h
      · exact Or.inr (Option.some.inj h).symm
      · cases h

end Entry

/-- A write into a slot is stopped by an argument before it has stored anything, or by a score on the
way to an overwrite, when it has stored its move. -/
theorem Bucket.trySave_cases_of_fault {p : Replacement} {key : UInt16} {slot : Slot} {b : Bucket}
    (h : (b.trySave checks p key generation r slot).fault = some fault) :
    (Entry.argumentFault? checks generation r = some fault ∧
        (b.trySave checks p key generation r slot).bucket = b) ∨
      (Entry.scoreFault? checks r = some fault ∧ (b.entry slot).Yields p key generation r ∧
        (b.trySave checks p key generation r slot).bucket =
          b.setEntry slot ((b.entry slot).withMove key r)) := by
  unfold trySave at h ⊢
  cases ha : Entry.argumentFault? checks generation r with
  | some argument =>
    rw [ha] at h
    exact Or.inl ⟨h, rfl⟩
  | none =>
    simp only [ha] at h ⊢
    split at h
    · rename_i hv hs
      exact Or.inr ⟨hs.trans h, (Entry.verdict_eq_overwrite_iff _ _ _ _ _).mp hv, rfl⟩
    · cases h

namespace Table

/-- To replace a bucket by itself changes nothing. -/
theorem setBucket_self {t : Table} {number : Nat} {b : Bucket}
    (h : t.buckets[number]? = some b) : t.setBucket number b = t := by
  have hbuckets : (t.setBucket number b).buckets = t.buckets := by
    apply Array.ext_getElem?
    intro n
    by_cases hn : n = number
    · rw [hn, getElem?_setBucket_self h, h]
    · exact getElem?_setBucket_of_ne t hn b
  exact congrArg (fun buckets => { t with buckets }) hbuckets

/-- A bucket that cannot be had is one that the array does not have. -/
theorem eq_of_bucketAt_error {t : Table} {number : Nat} (h : t.bucketAt number = .error fault) :
    fault = .indexOutOfBounds t.buckets.size number := by
  unfold bucketAt at h
  split at h
  · cases h
  · exact (Except.error.inj h).symm

/-- Whatever the table holds, through whichever writer, a write that is stopped leaves the table as it
was, with one exception. If it is stopped by its generation or its depth, or because there is no bucket
that it could go to, nothing has changed. If it is stopped by its value or its evaluation, then the
entry that it was aimed at yields to it, and what has changed is the move of this entry, at most: it is
the written one, or the old one if none was written under the key that was stored. -/
theorem stopped_write_leaves_all_but_move {t t' : Table} {w : Writer} {key : UInt64}
    (h : t.write checks w key generation r = (t', some fault)) :
    ((fault = .generationLowBits (lowBits generation) ∨ fault = .depthNotStorable r.depth ∨
        fault = .indexOutOfBounds t.buckets.size w.bucket) ∧ t' = t) ∨
    ((fault = .valueDoesNotFit r.value ∨ fault = .evalDoesNotFit r.eval) ∧
      ∃ b, t.buckets[w.bucket]? = some b ∧
        (b.entry w.slot).Yields t.params (entryKey key) generation r ∧
        t' = t.setBucket w.bucket (b.setEntry w.slot
          { b.entry w.slot with
            move :=
              if r.move = Move.none ∧ entryKey key = (b.entry w.slot).key then
                (b.entry w.slot).move
              else r.move })) := by
  unfold write at h
  cases hb : t.bucketAt w.bucket with
  | error missing =>
    simp only [hb, Prod.mk.injEq, Option.some.injEq] at h
    obtain ⟨rfl, rfl⟩ := h
    exact Or.inl ⟨Or.inr (Or.inr (eq_of_bucketAt_error hb)), rfl⟩
  | ok b =>
    simp only [hb, Prod.mk.injEq] at h
    obtain ⟨rfl, hfault⟩ := h
    have hget := (bucketAt_eq_ok_iff _ _ _).mp hb
    rcases Bucket.trySave_cases_of_fault hfault with ⟨ha, hbucket⟩ | ⟨hs, hy, hbucket⟩
    · -- The bucket is put back as it was.
      rw [hbucket]
      refine Or.inl ⟨?_, setBucket_self hget⟩
      rcases Entry.eq_of_argumentFault? ha with heq | heq
      · exact Or.inl heq
      · exact Or.inr (Or.inl heq)
    · rw [hbucket, Entry.withMove_eq]
      exact Or.inr ⟨Entry.eq_of_scoreFault? hs, b, hget, hy, rfl⟩

/-- A record under the key 5, and a write under the key 6 through a writer to its slot. The value does
not fit, so the record stays, but with the move that was written. -/
theorem stopped_write_leaves_all_but_move_under_other_key :
    let t := (single .default).setBucket 0 (Bucket.empty.save .default 5 0 (.failedHigh ⟨3⟩ 3) 0)
    let r : Record := ⟨⟨7⟩, ⟨40000⟩, Score.zero, 3, .lower, false, false⟩
    ∃ t', t.write .on ⟨0, 0⟩ 6 0 r = (t', some (.valueDoesNotFit ⟨40000⟩)) ∧
      ∃ b, t.buckets[0]? = some b ∧ (b.entry 0).key = 5 ∧
        t' = t.setBucket 0 (b.setEntry 0 { b.entry 0 with move := ⟨7⟩ }) := by
  intro t r
  have hw : t.write .on ⟨0, 0⟩ 6 0 r = (_, some (.valueDoesNotFit ⟨40000⟩)) := rfl
  refine ⟨_, hw, ?_⟩
  rcases stopped_write_leaves_all_but_move hw with ⟨hfault, -⟩ | ⟨-, b, hb, -, ht⟩
  · simp at hfault
  · have hkey : (b.entry 0).key = 5 := by
      obtain rfl := Option.some.inj hb
      rfl
    exact ⟨b, hb, hkey, ht⟩

end Table

/-- A table of one bucket. A writer is kept from a probe of the key 6, and then a record with the move 3
is written under the key 5, into the same slot. A write of the key 6 through the writer is stopped by its
value, which does not fit; and the probe of the key 5 that found the move 3 before now finds the move of
the key 6. -/
theorem Session.exists_move_of_stopped_write :
    ∃ (t : Table) (notices : List Notice) (s : Session) (w : Writer) (t' : Table),
      Table.create (.below (2 ^ 22)) .single .default 32 = .ok ⟨t, notices, none⟩ ∧
      Reachable .on (ofTable t) s ∧ s.writer? "kept" = some w ∧
      s.table.write .on w 6 0 ⟨⟨7⟩, ⟨40000⟩, Score.zero, 3, .lower, false, false⟩ =
        (t', some (.valueDoesNotFit ⟨40000⟩)) ∧
      s.table.probe 5 = .ok ⟨true, .failedHigh ⟨3⟩ 3, ⟨0, 0⟩⟩ ∧
      t'.probe 5 = .ok ⟨true, .failedHigh ⟨7⟩ 3, ⟨0, 0⟩⟩ ∧ t'.buckets ≠ s.table.buckets := by
  have created : Table.create (.below (2 ^ 22)) .single .default 32 =
      .ok ⟨Table.laidOut .default 1 largePage, _, none⟩ := rfl
  have hr : Reachable .on (ofTable (Table.laidOut .default 1 largePage)) _ :=
    Reachable.start.answerAll (.below 0)
      [.probe 6 (some "kept"), .write 5 (.failedHigh ⟨3⟩ 3) none none]
  refine ⟨_, _, _, _, _, created, hr, rfl, rfl, rfl, rfl, ?_⟩
  decide

end Transposition
