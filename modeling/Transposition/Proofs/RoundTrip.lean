import Transposition.Proofs.Overlay

/-!
# Configurations read back

The table that stands for a configuration is that of an outline which states every setting. A library
that can be relied on writes it if 63 bits hold its sizes; so what is written is read back as the
configuration, if it can be used, and as its first error otherwise (`Config.text_reads_back`).
-/

namespace Transposition

namespace Config

/-! ## The first error -/

/-- The error of the first setting that cannot be used: of the size, then of the number of workers,
then of the replacement parameters in their order. -/
inductive FirstError (c : Config) : ConfigError → Prop
  /-- The table would have no size. -/
  | noHash (hhash : c.hashMegabytes = 0) : FirstError c (.noHash 0)
  /-- There would be no worker. -/
  | noThreads (hhash : c.hashMegabytes ≠ 0) (hthreads : c.threads = 0) :
    FirstError c (.noThreads 0)
  /-- A replacement parameter is out of range, and those before it are not. -/
  | replacement {earlier later : List Parameter} {p : Parameter} (hhash : c.hashMegabytes ≠ 0)
    (hthreads : c.threads ≠ 0)
    (horder : [.depthSlack, .decayThreshold, .ageWeight] = earlier ++ p :: later)
    (hearlier : ∀ q ∈ earlier, q.Accepts (c.replacement.get q))
    (hp : ¬p.Accepts (c.replacement.get p)) :
    FirstError c (.replacement ⟨p, c.replacement.get p⟩)

/-- The first error is that of the validation. -/
theorem FirstError.validate_eq {c : Config} {e : ConfigError} (h : c.FirstError e) :
    c.validate = .error e := by
  unfold validate
  cases h with
  | noHash hhash => rw [if_pos hhash, hhash]
  | noThreads hhash hthreads => rw [if_neg hhash, if_pos hthreads, hthreads]
  | replacement hhash hthreads horder hearlier hp =>
    have hvalidate := (Replacement.validate_eq_error_iff c.replacement _).mpr
      ⟨_, _, _, horder, hearlier, hp, rfl⟩
    rw [if_neg hhash, if_neg hthreads, hvalidate]
    rfl

/-- The error of a validation is the first. -/
theorem validate_eq_error_iff (c : Config) (e : ConfigError) :
    c.validate = .error e ↔ c.FirstError e := by
  refine ⟨fun h => ?_, FirstError.validate_eq⟩
  unfold validate at h
  split at h
  · rename_i hhash
    rw [hhash] at h
    obtain rfl := Except.error.inj h
    exact .noHash hhash
  · rename_i hhash
    split at h
    · rename_i hthreads
      rw [hthreads] at h
      obtain rfl := Except.error.inj h
      exact .noThreads hhash hthreads
    · rename_i hthreads
      cases hvalidate : c.replacement.validate with
      | ok =>
        rw [hvalidate] at h
        cases h
      | error error =>
        rw [hvalidate] at h
        obtain rfl := Except.error.inj h
        obtain ⟨earlier, p, later, horder, hearlier, hp, rfl⟩ :=
          (Replacement.validate_eq_error_iff _ _).mp hvalidate
        exact .replacement hhash hthreads horder hearlier hp

/-! ## What is written -/

/-- The outline of a written configuration. -/
def outline (c : Config) : Toml.Outline where
  top := [("hash_mb", c.hashMegabytes.toNat), ("threads", c.threads.toNat)]
  sections := [("replacement", Parameter.all.map fun p => (p.name, (c.replacement.get p).toInt))]

/-- The overlay that gives every setting. -/
def overlay (c : Config) : Overlay where
  hashMegabytes := some c.hashMegabytes
  threads := some c.threads
  replacement :=
    ⟨some c.replacement.depthSlack, some c.replacement.decayThreshold,
      some c.replacement.ageWeight⟩

/-- The names of a written configuration need no quotes, and none is given twice in one place. -/
theorem wellNamed_outline (c : Config) : c.outline.WellNamed := by
  -- The names are the same for all configurations.
  refine ⟨fun e he => ?_, fun s hs => ?_, ?_, fun s hs => ?_⟩
  · have hbare : ∀ name ∈ ["hash_mb", "threads"], Toml.IsBareName name := by decide
    exact hbare e.1 (List.mem_map_of_mem he)
  · rw [List.mem_singleton.mp hs]
    refine ⟨show Toml.IsBareName "replacement" by decide, fun e he => ?_⟩
    obtain ⟨p, -, rfl⟩ := List.mem_map.mp he
    show Toml.IsBareName p.name
    cases p <;> decide
  · show ["hash_mb", "threads", "replacement"].Nodup
    decide
  · rw [List.mem_singleton.mp hs]
    show ["depth_slack", "decay_threshold", "age_weight"].Nodup
    decide

/-- A written configuration gives every setting. -/
theorem statedBy_outline (c : Config) : c.overlay.StatedBy c.outline.entries :=
  Overlay.statedBy_of_get? c.wellNamed_outline.names rfl rfl rfl
    (show ["depth_slack", "decay_threshold", "age_weight"].Nodup by decide) fun p => by cases p <;> rfl

/-- With every setting given, no default is left. -/
theorem over_overlay (c base : Config) : c.overlay.over base = c := rfl

/-- The integers of a written configuration fit 64 bits exactly if 63 bits hold its sizes. -/
theorem fits_outline_iff (c : Config) :
    c.outline.Fits ↔ c.hashMegabytes.toNat ≤ 2^63 - 1 ∧ c.threads.toNat ≤ 2^63 - 1 := by
  have hmin : Int64.minValue.toInt = -2^63 := by decide
  have hmax : Int64.maxValue.toInt = 2^63 - 1 := by decide
  have hintegers : c.outline.integers = [(c.hashMegabytes.toNat : Int), (c.threads.toNat : Int)] ++
      Parameter.all.map fun p => (c.replacement.get p).toInt := by
    simp [outline, Toml.Outline.integers]
  unfold Toml.Outline.Fits
  rw [hintegers, hmin, hmax]
  constructor
  · intro h
    have hhash := h _ List.mem_cons_self
    have hthreads := h _ (List.mem_cons_of_mem _ List.mem_cons_self)
    omega
  · rintro ⟨hhash, hthreads⟩ n hn
    simp only [List.cons_append, List.nil_append, List.mem_cons, List.mem_map] at hn
    obtain rfl | rfl | ⟨p, -, rfl⟩ := hn
    · omega
    · omega
    · have hlow := (c.replacement.get p).le_toInt
      have hhigh := (c.replacement.get p).toInt_lt
      omega

section Library

variable {toml : Toml.Library} {standard : String → Toml.Entries Toml.Value → Prop}
  (hspec : toml.Spec standard)
include hspec

/-- What stands for a configuration is its outline. -/
theorem encodeRecord_fields (c : Config) :
    toml.encodeRecord (fields toml) c = c.outline.entries := by
  have hparameters : toml.encodeRecord (Replacement.fields toml) c.replacement =
      Toml.integerEntries (Parameter.all.map fun p => (p.name, (c.replacement.get p).toInt)) := by
    rw [hspec.encodeRecord, Replacement.fields, Toml.integerEntries, List.map_map, List.map_map]
    refine List.map_congr_left fun p _ => ?_
    show (p.name, toml.int32.encode (c.replacement.get p)) = _
    rw [hspec.int32.encode]
    rfl
  rw [hspec.encodeRecord]
  show [("hash_mb", toml.word.encode c.hashMegabytes), ("threads", toml.word.encode c.threads),
    ("replacement", .table (toml.encodeRecord (Replacement.fields toml) c.replacement))] = _
  rw [hspec.word.encode, hspec.word.encode, hparameters]
  rfl

/-- A configuration is written exactly if 63 bits hold its sizes. -/
theorem text?_eq_none_iff (c : Config) :
    c.text? toml = none ↔ 2^63 - 1 < c.hashMegabytes.toNat ∨ 2^63 - 1 < c.threads.toNat := by
  have hfits := c.fits_outline_iff
  unfold text?
  rw [c.encodeRecord_fields hspec]
  constructor
  · intro hnone
    by_contra hsizes
    obtain ⟨text, htext, -⟩ := hspec.writes c.wellNamed_outline (hfits.mpr (by omega))
    rw [hnone] at htext
    cases htext
  · intro hsizes
    exact hspec.refuses fun h => by
      have hheld := hfits.mp h
      omega

/-- A written configuration denotes its outline. -/
theorem denotes_of_text? {c : Config} {text : String} (h : c.text? toml = some text) :
    standard text c.outline.entries := by
  unfold text? at h
  rw [c.encodeRecord_fields hspec] at h
  by_cases hfits : c.outline.Fits
  · obtain ⟨text', htext', hdenotes⟩ := hspec.writes c.wellNamed_outline hfits
    rw [htext'] at h
    obtain rfl := Option.some.inj h
    exact hdenotes
  · rw [hspec.refuses hfits] at h
    cases h

end Library

/-- For every configuration, with sizes of any 64 bits and parameters of any 32, and every library that
can be relied on, by whatever standard of documents: it is not written exactly if a size exceeds
`2^63 - 1`. What is written is read back, on whatever machine, as the configuration if it can be used,
and gives the error of the first setting that cannot otherwise. -/
theorem text_reads_back {toml : Toml.Library} {standard : String → Toml.Entries Toml.Value → Prop}
    (hspec : toml.Spec standard) (machine : Machine) (c : Config) :
    (c.text? toml = none ↔ 2^63 - 1 < c.hashMegabytes.toNat ∨ 2^63 - 1 < c.threads.toNat) ∧
      (∀ text, c.text? toml = some text →
        (c.validate = .ok () → ofText toml machine text = .ok c) ∧
        ∀ e, c.validate = .error e → ofText toml machine text = .error e) ∧
      ∀ e, c.validate = .error e ↔ c.FirstError e := by
  refine ⟨c.text?_eq_none_iff hspec, fun text htext => ?_, c.validate_eq_error_iff⟩
  have hdenotes := denotes_of_text? hspec htext
  have hread := validated_of_statedBy hspec machine hdenotes c.statedBy_outline
  rw [over_overlay] at hread
  exact ⟨hread.accepted, hread.refused⟩

/-- At the limits: a size of `2^63` is not written. With the largest size that is, and negative
parameters within their ranges, a configuration is read back; where two parameters are out of range, and
a size is the largest that is written, the first of them is reported. -/
theorem text_reads_back_at_limits :
    let machine : Machine := ⟨8⟩
    let large : Config := ⟨UInt64.ofNat (2^63), 1, .default⟩
    let usable : Config := ⟨UInt64.ofNat (2^63 - 1), 1, ⟨-255, -1, 1024⟩⟩
    let unusable : Config := ⟨1, UInt64.ofNat (2^63 - 1), ⟨4, Int32.minValue, -1⟩⟩
    let text := "hash_mb = 9223372036854775807\nthreads = 1\n\n[replacement]\n" ++
      "depth_slack = -255\ndecay_threshold = -1\nage_weight = 1024\n"
    let text' := "hash_mb = 1\nthreads = 9223372036854775807\n\n[replacement]\n" ++
      "depth_slack = 4\ndecay_threshold = -2147483648\nage_weight = -1\n"
    let error : ConfigError := .replacement ⟨.decayThreshold, Int32.minValue⟩
    large.text? Toml.plain = none ∧
      (usable.text? Toml.plain = some text ∧ usable.validate = .ok () ∧
        ofText Toml.plain machine text = .ok usable) ∧
      unusable.text? Toml.plain = some text' ∧ unusable.validate = .error error ∧
        ofText Toml.plain machine text' = .error error := by
  intro machine large usable unusable text text' error
  have hwritten : usable.text? Toml.plain = some text := by decide
  have hwritten' : unusable.text? Toml.plain = some text' := by decide
  have hvalid : usable.validate = .ok () := by decide
  obtain ⟨-, hread, -⟩ := text_reads_back Toml.plain_spec machine usable
  obtain ⟨-, hread', herror⟩ := text_reads_back Toml.plain_spec machine unusable
  have horder : [Parameter.depthSlack, .decayThreshold, .ageWeight] =
      [.depthSlack] ++ .decayThreshold :: [.ageWeight] := rfl
  have hinvalid : unusable.validate = .error error :=
    (herror error).mpr (.replacement (by decide) (by decide) horder (by decide) (by decide))
  exact ⟨(text_reads_back Toml.plain_spec machine large).1.mpr (Or.inl (by decide)),
    ⟨hwritten, hvalid, (hread text hwritten).1 hvalid⟩, hwritten', hinvalid,
    (hread' text' hwritten').2 error hinvalid⟩

end Config

end Transposition
