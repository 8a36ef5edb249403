import Transposition.Proofs.Clearing
import Transposition.Proofs.Trials
import Transposition.Stress.Report
import Transposition.Toml.Plain

/-!
# What a stress run reports

A stress run with one thread makes its rounds one after the other on a table that was just created, so
every round finds the table in order (`exists_rounds`), and the lines of the report are those of the
rows (`roundLines_eq`). At the end the table is cleared, and nothing is counted in it (`finish_eq`). Of
the random choices nothing is asked but that they keep to their ranges.

Several threads probe and write at the same time; nothing is said of their reports here.
-/

namespace Transposition.Stress

/-- A created table is uncorrupted: no entry is occupied. -/
theorem uncorrupted_of_create {memory : Memory} {crew : Crew} {params : Replacement} {bytes : UInt64}
    {c : Created} (h : Table.create memory crew params bytes = .ok c) :
    c.table.Uncorrupted params := by
  refine ⟨Table.intact_of_create h, fun n b hb => ?_⟩
  rw [(Table.blank_of_create h).empty n b hb]
  exact Bucket.plausible_empty

namespace Run

variable {toml : Toml.Library} {random : Random.Library} {machine : Machine} {memory : Memory}
  {file : String → FileRead} {o : Options} {config : Config} {run : Run}

/-! ## The start of a run -/

/-- The replacement parameters of a configuration that is accepted lie in their ranges. -/
theorem valid_of_accept {c : Config} (h : accept o c = .ok config) : config.replacement.Valid := by
  unfold accept at h
  split at h
  · cases h
  · rename_i hvalidate
    split_ifs at h
    obtain rfl := Except.ok.inj h
    exact ((Config.validate_eq_ok_iff c).mp hvalidate).2.2

/-- The replacement parameters of a run lie in their ranges. -/
theorem valid_of_configure (h : configure toml machine o file = .ok config) :
    config.replacement.Valid := by
  unfold configure at h
  cases hgiven : given toml machine o file with
  | error f =>
    rw [hgiven] at h
    cases h
  | ok base =>
    rw [hgiven] at h
    exact valid_of_accept h

/-- The list for the shared keys is had if its bytes can be counted and are granted. What is drawn then
does not matter. -/
theorem drawHot_cases (random : Random.Library) (memory : Memory) (seed : UInt64) (count : Nat) :
    (8 * count < 2^63 ∧ memory.grants (8 * count) = true ∧
      ∃ hot, drawHot random memory seed count = .ok hot) ∨
    (¬(8 * count < 2^63 ∧ memory.grants (8 * count) = true) ∧
      drawHot random memory seed count =
        .error (if 2^63 ≤ 8 * count then .fault .capacityOverflow else .noMemory (8 * count))) := by
  have hlimit : maxList = 2^63 - 1 := by decide
  unfold drawHot
  rw [Nat.mul_comm count, hlimit]
  dsimp only [keyBytes]
  by_cases hlong : 2^63 ≤ 8 * count
  · rw [if_pos (by omega), if_pos hlong]
    exact Or.inr ⟨fun h => absurd h.1 (Nat.not_lt.mpr hlong), rfl⟩
  · rw [if_neg (by omega), if_neg hlong]
    cases hgrants : memory.grants (8 * count) with
    | true => exact Or.inl ⟨Nat.not_le.mp hlong, rfl, _, rfl⟩
    | false => exact Or.inr ⟨fun h => Bool.false_ne_true h.2, rfl⟩

/-- With one thread, once the block for the table is granted, a run has what it asked for, a table that
was just created, and the keys that could be drawn; it fails only as the drawing of the keys does. -/
theorem create_eq {reserved : Nat} (hv : config.replacement.Valid)
    (hreserve : memory.reserve (bucketsFor (bytesOfMegabytes config.hashMegabytes)) = .ok reserved)
    (hthreads : config.threads = 1) (random : Random.Library) (o : Options) :
    ∃ created t, t.Uncorrupted config.replacement ∧ t.generation = 0 ∧
      create random memory o config =
        (created,
          (drawHot random memory o.seed o.hotKeys.toNat).map fun hot => ⟨o, config, t, hot⟩) := by
  have hcrew : config.startPool.1.crew = .threads 1 := by
    unfold Config.startPool
    rw [hthreads]
    exact Pool.crew_start 1
  obtain ⟨c, hmade⟩ : ∃ c, config.createTable memory (.threads 1) = .ok c := by
    have hcreate := Table.create_of_valid hv memory (.threads 1)
      (bytesOfMegabytes config.hashMegabytes)
    rw [hreserve] at hcreate
    exact ⟨_, hcreate⟩
  -- A single thread can be marked, so the clear in which the create ends is not stopped.
  have hfault : c.fault = none :=
    (Table.eq_laidOut_of_create hmade).1.trans (Crew.fault?_threads (by decide))
  obtain ⟨t, notices, fault⟩ := c
  obtain rfl : fault = none := hfault
  have huncorrupted := uncorrupted_of_create hmade
  have hgeneration := (Table.blank_of_create hmade).generation
  refine ⟨config.startPool.2 :: notices ++
    [.ready config.hashMegabytes t.bucketCount t.largePages t.params], t, huncorrupted, hgeneration, ?_⟩
  simp only [create, hcrew, hmade]

/-- With one thread, once the block for the table is granted: a run is created for which all that was
asked for is there, if the list for its shared keys can be had, and it fails otherwise. -/
theorem create_cases {reserved : Nat} (hv : config.replacement.Valid)
    (hreserve : memory.reserve (bucketsFor (bytesOfMegabytes config.hashMegabytes)) = .ok reserved)
    (hthreads : config.threads = 1) (random : Random.Library) (o : Options) :
    let bytes := 8 * o.hotKeys.toNat
    ((bytes < 2^63 ∧ memory.grants bytes = true) ∧ ∃ created run,
      create random memory o config = (created, .ok run) ∧ run.options = o ∧ run.config = config ∧
        run.table.Uncorrupted config.replacement ∧ run.table.generation = 0) ∨
    (¬(bytes < 2^63 ∧ memory.grants bytes = true) ∧ ∃ created,
      create random memory o config =
        (created, .error (if 2^63 ≤ bytes then .fault .capacityOverflow else .noMemory bytes))) := by
  intro bytes
  obtain ⟨created, t, htable, hgeneration, hcreate⟩ := create_eq hv hreserve hthreads random o
  rcases drawHot_cases random memory o.seed o.hotKeys.toNat with
    ⟨hfits, hgrants, hot, hdrawn⟩ | ⟨hrefused, hdrawn⟩
  · rw [hdrawn] at hcreate
    exact Or.inl ⟨⟨hfits, hgrants⟩, created, ⟨o, config, t, hot⟩, hcreate, rfl, rfl, htable,
      hgeneration⟩
  · rw [hdrawn] at hcreate
    exact Or.inr ⟨hrefused, created, hcreate⟩

/-! ## The end of a run -/

/-- At the end of a run with one thread the table is cleared, and no entry counts. -/
theorem finish_eq (h : run.table.Sound) (hone : run.config.threads.toNat = 1) :
    run.finish = .ok ({ run with table := (run.table.clear (.threads 1)).table },
      [.cleared run.table.bucketCount 1, .emptied 0]) := by
  have hnone : (run.table.clear (.threads 1)).fault = none :=
    (Table.fault_clear _ _).trans (Crew.fault?_threads (by decide))
  have hempty : (run.table.clear (.threads 1)).table.hashfull (some anyAge) = .ok 0 :=
    (Table.blank_clearBy _ _ _ h hnone).hashfull_eq (some anyAge)
  unfold finish
  simp only [hone, hnone, hempty, Table.notices_clear_threads (show 1 ≤ marksLimit by decide)]
  rfl
end Run

/-! ## The rounds of a run -/

/-- The lines of a report are those of its rows, and so are the notices. -/
theorem roundLines_eq {random : Random.Library} {run : Run} {number count : Nat} {t : Table}
    {rows : List Row}
    (h : rounds (Trial.draw random run.hot (.ofRatio random run.options.hotRatio))
      (Run.source random run.options.seed) run.config.threads.toNat run.options.probes.toNat number
      count run.table = .ok (t, rows)) :
    roundLines random number count run =
      (rows.map Row.line, rows.flatMap Run.roundNotices, .ok { run with table := t }) := by
  induction count generalizing number run rows with
  | zero =>
    simp only [rounds, Except.ok.injEq, Prod.mk.injEq] at h
    obtain ⟨rfl, rfl⟩ := h
    rfl
  | succ count ih =>
    unfold rounds at h
    split at h
    · cases h
    · rename_i t₁ row hfirst
      split at h
      · cases h
      · rename_i t₂ others hrest
        simp only [Except.ok.injEq, Prod.mk.injEq] at h
        obtain ⟨rfl, rfl⟩ := h
        have hround : run.round random number = .ok ({ run with table := t₁ }, row) := by
          simp only [Run.round, hfirst]
        have hothers := @ih { run with table := t₁ } (number + 1) others hrest
        simp only [roundLines, hround, hothers]
        rfl

/-- A row that finds the table in order comes with no notice. -/
theorem flatMap_roundNotices_of_clean {requested : Nat} {rows : List Row}
    (h : ∀ row ∈ rows, row.Clean requested) : rows.flatMap Run.roundNotices = [] := by
  rw [List.flatMap_eq_nil_iff]
  intro row hrow
  exact if_pos (h row hrow).corrupt

/-- A run with one thread makes its rounds and clears the table, whatever trials are drawn within their
ranges. -/
theorem exists_rounds_and_finish {run : Run} {params : Replacement}
    (h : run.table.Uncorrupted params) (hg : run.table.generation = 0)
    (hone : run.config.threads.toNat = 1) {σ : Type} {next : σ → Trial × σ}
    (hnext : ∀ s, (next s).1.InRange) (source : Nat → Nat → σ) :
    ∃ t rows, rounds next source 1 run.options.probes.toNat 0 run.options.rounds.toNat run.table =
        .ok (t, rows) ∧
      rows.map Row.round = List.range' 1 run.options.rounds.toNat ∧
      (∀ row ∈ rows, row.Clean run.options.probes.toNat) ∧
      ∃ ended, Run.finish { run with table := t } =
        .ok (ended, [.cleared run.table.bucketCount 1, .emptied 0]) := by
  have hstart : run.table.generation.toNat = 8 * 0 % 256 := by
    rw [hg]
    rfl
  obtain ⟨t, rows, hmade, hend, hcount, hnumbers, hclean⟩ := exists_rounds hnext h source 1
    run.options.probes.toNat run.options.rounds.toNat hstart
  have hfinish : Run.finish { run with table := t } = _ := Run.finish_eq hend.toSound hone
  rw [hcount] at hfinish
  rw [Nat.one_mul] at hclean
  exact ⟨t, rows, hmade, hnumbers, hclean, _, hfinish⟩

/-- For every configuration that is accepted and whose table gets its block, with one thread, whichever
library reads the configuration and whichever, keeping to its ranges, makes the random choices.

If the list for the shared keys can be had, the run is created. Whatever trials are drawn within their
ranges, all its rounds are made, numbered from 1. Each of them reports eight times its number modulo 256
as the generation, as many probes as were asked for, at most as many hits, none of them corrupt, and an
occupancy by its own entries that is at most the one by the entries of any round, which is at most 1000.
In the table that is cleared after the last round nothing is counted. The trials of the run are such
trials. So the program ends well and prints the rows of such rounds; and after what was reported when the
table was created there are two more notices, of a clear that needed nothing of the caller and of an
occupancy of zero.

If that list cannot be had, the program ends before its first round, without a row. -/
theorem single_thread_finds_table_in_order {toml : Toml.Library} {random : Random.Library}
    (hranges : random.KeepsRanges) {machine : Machine} {memory : Memory} {file : String → FileRead}
    {o : Options} {config : Config} {reserved : Nat}
    (hconfig : Run.configure toml machine o file = .ok config)
    (hreserve : memory.reserve (bucketsFor (bytesOfMegabytes config.hashMegabytes)) = .ok reserved)
    (hthreads : config.threads = 1) :
    let bytes := 8 * o.hotKeys.toNat
    (bytes < 2^63 ∧ memory.grants bytes = true → ∃ created run,
      Run.create random memory o config = (created, .ok run) ∧
      (∀ (σ : Type) (next : σ → Trial × σ) (source : Nat → Nat → σ), (∀ s, (next s).1.InRange) →
        ∃ t rows, rounds next source 1 o.probes.toNat 0 o.rounds.toNat run.table = .ok (t, rows) ∧
          rows.map Row.round = List.range' 1 o.rounds.toNat ∧
          (∀ row ∈ rows, row.Clean o.probes.toNat) ∧
          ∃ ended, Run.finish { run with table := t } =
            .ok (ended, [.cleared run.table.bucketCount 1, .emptied 0])) ∧
      ∃ rows : List Row, rows.map Row.round = List.range' 1 o.rounds.toNat ∧
        (∀ row ∈ rows, row.Clean o.probes.toNat) ∧
        ∀ (filter : Filter) (before : List String),
          report toml random machine memory filter before file o =
            ⟨0, heading :: rows.map Row.line, Lines.ofTexts (before ++ noticeMessages filter
              (created ++ [.cleared run.table.bucketCount 1, .emptied 0]))⟩) ∧
    (¬(bytes < 2^63 ∧ memory.grants bytes = true) → ∃ created failure,
      Run.create random memory o config = (created, .error failure) ∧
      failure = (if 2^63 ≤ bytes then .fault .capacityOverflow else .noMemory bytes) ∧
      ∀ (filter : Filter) (before : List String),
        report toml random machine memory filter before file o =
          ⟨failure.status, [],
            Lines.ofTexts (before ++ noticeMessages filter created ++ failure.messages)⟩) := by
  intro bytes
  rcases Run.create_cases (Run.valid_of_configure hconfig) hreserve hthreads random o with
    ⟨hgranted, created, run, hcreate, rfl, rfl, htable, hgeneration⟩ |
    ⟨hrefused, created, hcreate⟩
  · refine ⟨fun _ => ?_, fun hnot => absurd hgranted hnot⟩
    have hone : run.config.threads.toNat = 1 := by
      rw [hthreads]
      rfl
    refine ⟨created, run, hcreate, fun σ next source hnext =>
      exists_rounds_and_finish htable hgeneration hone hnext source, ?_⟩
    -- The program draws its trials from a state for each round.
    have hdraw := Trial.inRange_draw hranges run.hot (.ofRatio random run.options.hotRatio)
    obtain ⟨t, rows, hmade, hnumbers, hclean, ended, hfinish⟩ :=
      exists_rounds_and_finish htable hgeneration hone hdraw (Run.source random run.options.seed)
    have hlines : roundLines random 0 run.options.rounds.toNat run = (rows.map Row.line, _, _) :=
      roundLines_eq (by rw [hone]; exact hmade)
    rw [flatMap_roundNotices_of_clean hclean] at hlines
    refine ⟨rows, hnumbers, hclean, fun filter before => ?_⟩
    simp only [report, hconfig, hcreate, hlines, Except.bind, hfinish, List.append_nil]
    rfl
  · refine ⟨fun hgranted => absurd hgranted hrefused, fun _ => ?_⟩
    refine ⟨created, _, hcreate, rfl, fun filter before => ?_⟩
    simp only [report, hconfig, hcreate]
    rfl

/-- One megabyte and 33 rounds of five trials each, with a single shared key: the table is created, and
in the last round the count of generations has come round. With so many shared keys that their bytes
cannot be counted, the run ends before its first round. -/
theorem single_thread_finds_table_in_order_after_generations :
    let machine : Machine := ⟨4⟩
    let memory := Memory.below (2 ^ 22)
    let o : Options :=
      { Options.default with
        hash := some 1, threads := some 1, rounds := 33, probes := 5, hotKeys := 1 }
    let many : Options := { o with hotKeys := UInt64.ofNat (2 ^ 60) }
    let config : Config := ⟨1, 1, .default⟩
    let file (_ : String) : FileRead := .ok ByteArray.empty
    Run.configure Toml.plain machine o file = .ok config ∧ config.threads = 1 ∧
      (∃ created run,
        Run.create Random.Generator.library memory o config = (created, .ok run) ∧
        ∃ rows : List Row, rows.length = 33 ∧
          (∀ row ∈ rows, row.probes = 5 ∧ row.tally.hits ≤ 5 ∧ row.tally.corrupt = 0) ∧
          (∀ row ∈ rows, row.round = 33 → row.generation = 8) ∧
          (report Toml.plain Random.Generator.library machine memory Filter.errors [] file o).rows =
            heading :: rows.map Row.line) ∧
      ∃ created, Run.create Random.Generator.library memory many config =
          (created, .error (.fault .capacityOverflow)) ∧
        report Toml.plain Random.Generator.library machine memory Filter.errors [] file many =
          ⟨101, [], Lines.ofTexts (noticeMessages Filter.errors created ++ ["capacity overflow"])⟩ := by
  intro machine memory o many config file
  have hconfig : Run.configure Toml.plain machine o file = .ok config := rfl
  have hmany : Run.configure Toml.plain machine many file = .ok config := rfl
  have hreserve : memory.reserve (bucketsFor (bytesOfMegabytes config.hashMegabytes)) =
      .ok largePage := by decide
  have hranges := Random.Generator.keepsRanges_library
  obtain ⟨hmade, -⟩ := single_thread_finds_table_in_order hranges hconfig hreserve rfl
  obtain ⟨-, hrefused⟩ := single_thread_finds_table_in_order hranges hmany hreserve rfl
  obtain ⟨created, run, hcreate, -, rows, hnumbers, hclean, hreport⟩ := hmade (by decide)
  obtain ⟨created', failure, hcreate', rfl, hreport'⟩ := hrefused (by decide)
  refine ⟨hconfig, rfl, ⟨created, run, hcreate, rows, ?_, fun row hrow => ?_,
    fun row hrow hlast => ?_, ?_⟩, created', ?_⟩
  · rw [← List.length_map Row.round, hnumbers, List.length_range']
    rfl
  · exact ⟨(hclean row hrow).probes, (hclean row hrow).hits, (hclean row hrow).corrupt⟩
  · have hgeneration := (hclean row hrow).generation
    rw [hlast] at hgeneration
    exact UInt8.toNat_inj.mp hgeneration
  · rw [hreport]
  · have hlong : 2^63 ≤ 8 * many.hotKeys.toNat := by decide
    rw [if_pos hlong] at hcreate' hreport'
    exact ⟨hcreate', hreport' Filter.errors []⟩

end Transposition.Stress
