import Transposition.Config.Text
import Transposition.Proofs.Plain

/-!
# Partial configurations

An overlay is some of the settings of a configuration. What a document has to give for it to state an
overlay (`Overlay.StatedBy`) is put in terms of what is in it and not of how it is searched: an integer
under the key of each setting that the overlay gives, and nothing under the key of one that it does not.
Where the keys stand, how they are spelled and what else there is does not matter.

With a library that can be relied on, a text that denotes such a document is read as the default
configuration with the settings of the overlay in place (`Config.partial_text_overlays_defaults`).
-/

namespace Transposition

/-! ## Overlays -/

/-- Some of the replacement parameters. -/
structure ReplacementOverlay where
  /-- The slack in the comparison of depths. -/
  depthSlack : Option Int32 := none
  /-- The depth from which refused writes wear an entry down. -/
  decayThreshold : Option Int32 := none
  /-- The weight of age. -/
  ageWeight : Option Int32 := none

/-- Some of the settings of a table. -/
structure Overlay where
  /-- The size of the table in megabytes. -/
  hashMegabytes : Option UInt64 := none
  /-- The number of workers that clear it. -/
  threads : Option UInt64 := none
  /-- The tuning of the replacement rules. -/
  replacement : ReplacementOverlay := {}

/-- The value that an overlay gives a parameter. -/
def ReplacementOverlay.given (o : ReplacementOverlay) : Parameter → Option Int32
  | .depthSlack => o.depthSlack
  | .decayThreshold => o.decayThreshold
  | .ageWeight => o.ageWeight

/-- Replaces the parameters that an overlay gives. -/
def ReplacementOverlay.over (o : ReplacementOverlay) (base : Replacement) : Replacement where
  depthSlack := o.depthSlack.getD base.depthSlack
  decayThreshold := o.decayThreshold.getD base.decayThreshold
  ageWeight := o.ageWeight.getD base.ageWeight

/-- Replaces the settings that an overlay gives. -/
def Overlay.over (o : Overlay) (base : Config) : Config where
  hashMegabytes := o.hashMegabytes.getD base.hashMegabytes
  threads := o.threads.getD base.threads
  replacement := o.replacement.over base.replacement

/-! ## What a document gives -/

namespace Toml

/-- Under a key, there is the given value and no other. -/
def Entries.Gives (entries : Entries Value) (key : String) (given : Option Value) : Prop :=
  ∀ v, (key, v) ∈ entries ↔ given = some v

/-- What is found under a key stands under it. -/
theorem Entries.mem_of_get? {entries : Entries Value} {key : String} {v : Value}
    (h : get? key entries = some v) : (key, v) ∈ entries := by
  obtain ⟨before, after, rfl, -⟩ := List.lookup_eq_some_iff.mp h
  exact List.mem_append_right before List.mem_cons_self

/-- Where keys differ, what stands under a key is found. -/
theorem Entries.get?_of_mem {entries : Entries Value} (hkeys : (entries.map Prod.fst).Nodup)
    {key : String} {v : Value} (h : (key, v) ∈ entries) : get? key entries = some v := by
  obtain ⟨before, after, rfl⟩ := List.append_of_mem h
  have hfree : get? key before = none := get?_eq_none_of_nodup hkeys
  unfold get? at hfree ⊢
  rw [List.lookup_append, hfree, Option.none_or, List.lookup_cons_self]

/-- What is given under a key is found. -/
theorem Entries.Gives.get?_eq {entries : Entries Value} {key : String} {given : Option Value}
    (h : entries.Gives key given) : get? key entries = given := by
  -- What is found stands in the entries, and so does what is given; the two are the same.
  cases hfound : get? key entries with
  | some v => exact ((h v).mp (mem_of_get? hfound)).symm
  | none =>
    rw [get?_eq_none_iff] at hfound
    cases given with
    | none => rfl
    | some v => exact absurd (List.mem_map_of_mem ((h v).mpr rfl)) hfound

/-- Where keys differ, what is found under a key is given. -/
theorem Entries.gives_of_get? {entries : Entries Value} (hkeys : (entries.map Prod.fst).Nodup)
    {key : String} {given : Option Value} (h : get? key entries = given) :
    entries.Gives key given := by
  subst h
  exact fun v => ⟨get?_of_mem hkeys, mem_of_get?⟩

end Toml

/-- A table gives the parameters of an overlay and no others. -/
structure ReplacementOverlay.StatedBy (o : ReplacementOverlay) (entries : Toml.Entries Toml.Value) :
    Prop where
  /-- No key is given twice. -/
  keys : (entries.map Prod.fst).Nodup
  /-- The parameters are integers. -/
  parameters (p : Parameter) : entries.Gives p.name ((o.given p).map fun x => .integer x.toInt)

/-- A document gives the settings of an overlay and no others. -/
structure Overlay.StatedBy (o : Overlay) (entries : Toml.Entries Toml.Value) : Prop where
  /-- No key is given twice. -/
  keys : (entries.map Prod.fst).Nodup
  /-- The size of the table is an integer. -/
  hashMegabytes : entries.Gives "hash_mb" (o.hashMegabytes.map fun w => .integer w.toNat)
  /-- The number of workers is an integer. -/
  threads : entries.Gives "threads" (o.threads.map fun w => .integer w.toNat)
  /-- The replacement parameters are in a table of their own, which is needed only for some. -/
  replacement :
    (∃ below, entries.Gives "replacement" (some (.table below)) ∧ o.replacement.StatedBy below) ∨
    entries.Gives "replacement" none ∧ o.replacement = {}

/-- A document whose keys differ states the overlay that is found in it. -/
theorem Overlay.statedBy_of_get? {o : Overlay} {entries below : Toml.Entries Toml.Value}
    (hkeys : (entries.map Prod.fst).Nodup)
    (hhash : entries.get? "hash_mb" = o.hashMegabytes.map fun w => .integer w.toNat)
    (hthreads : entries.get? "threads" = o.threads.map fun w => .integer w.toNat)
    (htable : entries.get? "replacement" = some (.table below))
    (hbelow : (below.map Prod.fst).Nodup)
    (hparameters : ∀ p : Parameter,
      below.get? p.name = (o.replacement.given p).map fun x => .integer x.toInt) :
    o.StatedBy entries := by
  refine ⟨hkeys, Toml.Entries.gives_of_get? hkeys hhash, Toml.Entries.gives_of_get? hkeys hthreads,
    Or.inl ⟨below, Toml.Entries.gives_of_get? hkeys htable, hbelow, fun p => ?_⟩⟩
  exact Toml.Entries.gives_of_get? hbelow (hparameters p)

/-! ## What is read of it -/

namespace Toml

variable {α S : Type} {codec : Codec α} {name : String} {get : S → α} {set : α → S → S}
  {entries : Entries Value}

/-- A field with nothing under its key stays what it is. -/
theorem Codec.take?_field_of_none (h : entries.get? name = none) (s : S) :
    (codec.field name get set).take? entries s = some s := by
  have hnone : entries.get? (codec.field name get set).name = none := h
  unfold Field.take?
  rw [hnone]

/-- A field with something of the right kind under its key is replaced. -/
theorem Codec.take?_field_of_some {v : Value} {a : α} (h : entries.get? name = some v)
    (hdecode : codec.decode? v = some a) (s : S) :
    (codec.field name get set).take? entries s = some (set a s) := by
  have hsome : entries.get? (codec.field name get set).name = some v := h
  unfold Field.take?
  rw [hsome]
  show (codec.decode? v).map (fun a => set a s) = some (set a s)
  rw [hdecode]
  rfl

/-- A field of integers is replaced exactly if an integer is given. -/
theorem Codec.Integral.take?_field {toInt : α → Int} (hcodec : codec.Integral toInt)
    {given : Option α} (h : entries.Gives name (given.map fun a => .integer (toInt a))) (s : S) :
    (codec.field name get set).take? entries s = some (given.elim s fun a => set a s) := by
  cases given with
  | none => exact take?_field_of_none h.get?_eq s
  | some a => exact take?_field_of_some h.get?_eq (hcodec.decode? a) s

end Toml

section Library

variable {toml : Toml.Library} {standard : String → Toml.Entries Toml.Value → Prop}
  (hspec : toml.Spec standard)
include hspec

/-- The parameters that a table gives are read, and the others have their defaults. -/
theorem ReplacementOverlay.StatedBy.decode?_codec {o : ReplacementOverlay}
    {below : Toml.Entries Toml.Value} (h : o.StatedBy below) :
    (Replacement.codec toml).decode? (.table below) = some (o.over .default) := by
  have htake (p : Parameter) (r : Replacement) :
      (toml.int32.field p.name (fun r => r.get p) (Replacement.set p)).take? below r =
        some ((o.given p).elim r fun x => r.set p x) :=
    hspec.int32.take?_field (h.parameters p) r
  have hnames : ((Replacement.fields toml).map Toml.Field.name).Nodup := by
    show ["depth_slack", "decay_threshold", "age_weight"].Nodup
    decide
  show toml.decodeRecord? (Replacement.fields toml) .default (.table below) = _
  rw [hspec.decodeRecord? _ hnames h.keys, Replacement.fields, List.foldlM_map]
  simp only [htake]
  -- Each parameter is given or not.
  obtain ⟨depthSlack, decayThreshold, ageWeight⟩ := o
  cases depthSlack <;> cases decayThreshold <;> cases ageWeight <;> rfl

/-- The settings that a document gives are read, and the others have their defaults. -/
theorem Overlay.StatedBy.decodeRecord?_eq {o : Overlay} {entries : Toml.Entries Toml.Value}
    (h : o.StatedBy entries) (machine : Machine) :
    toml.decodeRecord? (Config.fields toml) (Config.default machine) (.table entries) =
      some (o.over (Config.default machine)) := by
  have hnames : ((Config.fields toml).map Toml.Field.name).Nodup := by
    show ["hash_mb", "threads", "replacement"].Nodup
    decide
  have hreplacement (c : Config) (hdefault : c.replacement = .default) :
      ((Replacement.codec toml).field "replacement" (fun c : Config => c.replacement)
        fun r c => { c with replacement := r }).take? entries c =
      some { c with replacement := o.replacement.over .default } := by
    rcases h.replacement with ⟨below, hgives, hbelow⟩ | ⟨hgives, hnone⟩
    · exact Toml.Codec.take?_field_of_some hgives.get?_eq (hbelow.decode?_codec hspec) c
    · rw [Toml.Codec.take?_field_of_none hgives.get?_eq, hnone]
      show some c = some { c with replacement := .default }
      rw [← hdefault]
  rw [hspec.decodeRecord? _ hnames h.keys, Config.fields, List.foldlM_cons,
    hspec.word.take?_field h.hashMegabytes, Option.bind_eq_bind, Option.bind_some, List.foldlM_cons,
    hspec.word.take?_field h.threads, Option.bind_eq_bind, Option.bind_some, List.foldlM_cons]
  rw [hreplacement]
  · obtain ⟨hashMegabytes, threads, replacement⟩ := o
    cases hashMegabytes <;> cases threads <;> rfl
  · cases o.hashMegabytes <;> cases o.threads <;> rfl

end Library

namespace Config

/-- What is read is a configuration if it can be used, and its error otherwise. -/
structure Validated (c : Config) (read : Except ConfigError Config) : Prop where
  /-- A configuration that can be used is what is read. -/
  accepted : c.validate = .ok () → read = .ok c
  /-- The error of one that cannot be used is what is read. -/
  refused : ∀ e, c.validate = .error e → read = .error e

/-- There is one outcome for a configuration. -/
theorem Validated.unique {c : Config} {read read' : Except ConfigError Config}
    (h : c.Validated read) (h' : c.Validated read') : read = read' := by
  cases hc : c.validate with
  | ok => rw [h.accepted hc, h'.accepted hc]
  | error e => rw [h.refused e hc, h'.refused e hc]

section Library

variable {toml : Toml.Library} {standard : String → Toml.Entries Toml.Value → Prop}
  (hspec : toml.Spec standard)
include hspec

/-- A text that states an overlay is read as the default configuration below it. -/
theorem validated_of_statedBy (machine : Machine) {o : Overlay} {text : String}
    {entries : Toml.Entries Toml.Value} (hdenotes : standard text entries)
    (hstated : o.StatedBy entries) :
    (o.over (default machine)).Validated (ofText toml machine text) := by
  have hread : ofText? toml machine text = some (o.over (default machine)) := by
    unfold ofText?
    rw [hspec.reads hdenotes, Option.bind_some, hstated.decodeRecord?_eq hspec]
  unfold ofText
  rw [hread]
  constructor
  · intro hvalid
    dsimp only
    rw [hvalid]
    rfl
  · intro e herror
    dsimp only
    rw [herror]
    rfl

end Library

/-- For every overlay, let `c` be the default configuration with exactly the settings of the overlay
in place, at both levels, and take any library that can be relied on, by whatever standard of documents.
Every text that denotes a document which states the overlay, whatever else the document holds, is read
as `c` if `c` can be used, and gives the error of `c` otherwise.

There are such texts: lines that assign integers to keys at the top level and under headers, in any order
and with any further keys and headers among them, if only no name is given twice in one place. And two
texts whose documents state the same overlay are read alike, however they order their keys and whatever
unknown keys they have. -/
theorem partial_text_overlays_defaults {toml : Toml.Library}
    {standard : String → Toml.Entries Toml.Value → Prop} (hspec : toml.Spec standard)
    (machine : Machine) (o : Overlay) :
    let c : Config :=
      ⟨o.hashMegabytes.getD 16, o.threads.getD machine.processors,
        ⟨o.replacement.depthSlack.getD 4, o.replacement.decayThreshold.getD 5,
          o.replacement.ageWeight.getD 2⟩⟩
    (∀ text entries, standard text entries → o.StatedBy entries →
        c.Validated (ofText toml machine text)) ∧
      (∀ outline : Toml.Outline, outline.WellNamed → outline.Fits → o.StatedBy outline.entries →
        c.Validated (ofText toml machine outline.text)) ∧
      ∀ text text' entries entries', standard text entries → standard text' entries' →
        o.StatedBy entries → o.StatedBy entries' →
        ofText toml machine text = ofText toml machine text' := by
  intro c
  have hread (text : String) (entries : Toml.Entries Toml.Value)
      (hdenotes : standard text entries) (hstated : o.StatedBy entries) :
      c.Validated (ofText toml machine text) :=
    validated_of_statedBy hspec machine hdenotes hstated
  refine ⟨hread, ?_, ?_⟩
  · intro outline hnamed hfits hstated
    exact hread outline.text outline.entries (hspec.denotes hnamed hfits) hstated
  · intro text text' entries entries' hdenotes hdenotes' hstated hstated'
    exact (hread text entries hdenotes hstated).unique
      (hread text' entries' hdenotes' hstated')

/-- A document with its keys out of order, a number in another base, a comment, and unknown keys of
other kinds at both levels gives what one of integers gives that is in another order and has other
unknown keys and a table that stands for nothing: the settings that are not given keep their defaults at
both levels. -/
theorem partial_text_overlays_defaults_reordered :
    let machine : Machine := ⟨8⟩
    let o : Overlay := ⟨none, some 3, ⟨some (-7), none, some 16⟩⟩
    let text := "colour = 'red'\nthreads = 3 # few\n[replacement]\nage_weight = 0x10\n" ++
      "levels = [1]\ndepth_slack = -7\n"
    let entries : Toml.Entries Toml.Value :=
      [("colour", .text "red"), ("threads", .integer 3),
        ("replacement", .table [("age_weight", .integer 16), ("levels", .array [.integer 1]),
          ("depth_slack", .integer (-7))])]
    let outline : Toml.Outline :=
      ⟨[("threads", 3), ("Hash_mb", 1)],
        [("window", [("hash_mb", 9)]),
          ("replacement", [("depth_slack", -7), ("slack", 5), ("age_weight", 16)])]⟩
    ((Toml.plain.read text = some entries ∧ o.StatedBy entries) ∧
      outline.WellNamed ∧ outline.Fits ∧ o.StatedBy outline.entries) ∧
      ofText Toml.plain machine text = .ok ⟨16, 3, ⟨-7, 5, 16⟩⟩ ∧
      ofText Toml.plain machine outline.text = .ok ⟨16, 3, ⟨-7, 5, 16⟩⟩ ∧
      ofText Toml.plain machine text = ofText Toml.plain machine outline.text := by
  intro machine o text entries outline
  have hlines : Toml.linesOf? text = some
      [.assign ["colour"] (.text "red"), .assign ["threads"] (.integer 3),
        .header ["replacement"], .assign ["age_weight"] (.integer 16),
        .assign ["levels"] (.array [.integer 1]), .assign ["depth_slack"] (.integer (-7))] := by
    dsimp only [text]
    rfl
  have hread : Toml.plain.read text = some entries := by
    show ((Toml.linesOf? text).bind Toml.ofLines?).map Toml.Node.entries = some entries
    rw [hlines]
    rfl
  have hstated : o.StatedBy entries :=
    Overlay.statedBy_of_get? (by decide) rfl rfl rfl (by decide) fun p => by cases p <;> rfl
  have hnamed : outline.WellNamed := by decide
  have hfits : outline.Fits := by decide
  have hstated' : o.StatedBy outline.entries :=
    Overlay.statedBy_of_get? (by decide) rfl rfl rfl (by decide) fun p => by cases p <;> rfl
  obtain ⟨hvalidated, houtline, hsame⟩ :=
    partial_text_overlays_defaults Toml.plain_spec machine o
  have hread' := Toml.plain_spec.denotes hnamed hfits
  exact ⟨⟨⟨hread, hstated⟩, hnamed, hfits, hstated'⟩,
    (hvalidated text entries hread hstated).accepted (by decide),
    (houtline outline hnamed hfits hstated').accepted (by decide),
    hsame text outline.text entries outline.entries hread hread' hstated hstated'⟩

end Config

end Transposition
