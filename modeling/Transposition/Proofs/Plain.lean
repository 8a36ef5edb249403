import Transposition.Proofs.Lines
import Transposition.Proofs.Outline
import Transposition.Toml.Plain

/-!
# The library of the project

The library `plain` is one that can be relied on (`plain_spec`), where a text denotes the table that it
is read as. The text of an outline is read as its lines, which are its document; and the outline of what
an outline gives is the outline itself, so it is written as its text.
-/

namespace Transposition.Toml

/-! ## Texts of outlines -/

/-- Integers that fit 64 bits, under names without quotes, are read line by line. -/
theorem Reads.integers {pairs : Entries Int} (hbare : ∀ e ∈ pairs, IsBareName e.1)
    (hfit : ∀ e ∈ pairs, fit64 e.2 = some e.2) :
    Reads (String.join (pairs.map integerLine)).toList (assignments (integerNodes pairs)) := by
  have hlines : assignments (integerNodes pairs) =
      pairs.flatMap fun e => [.assign [e.1] (.integer e.2)] := by
    rw [assignments, integerNodes, List.map_map, List.map_eq_flatMap]
    rfl
  rw [hlines, String.toList_join, List.flatMap_map]
  exact .flatMap fun e he => .integer (hbare e he) (hfit e he)

/-- A section is read as its header and the lines of its keys. -/
theorem Reads.section {s : String × Entries Int} (hname : IsBareName s.1)
    (hbare : ∀ e ∈ s.2, IsBareName e.1) (hfit : ∀ e ∈ s.2, fit64 e.2 = some e.2) :
    Reads (Outline.sectionText s).toList (.header [s.1] :: assignments (integerNodes s.2)) := by
  have htext : (Outline.sectionText s).toList =
      ['\n'] ++ ('[' :: s.1.toList ++ [']', '\n']) ++
        (String.join (s.2.map integerLine)).toList := by
    unfold Outline.sectionText
    simp
  rw [htext]
  exact (Reads.newline.append (.header hname)).append (.integers hbare hfit)

namespace Outline

variable {o : Outline}

/-- An integer of an outline that fits is read back. -/
theorem Fits.fit64_eq (h : o.Fits) {n : Int} (hn : n ∈ o.integers) : fit64 n = some n :=
  if_pos (h n hn)

/-- The text of an outline is read as its lines. -/
theorem reads_text (hnamed : o.WellNamed) (hfits : o.Fits) : Reads o.text.toList o.lines := by
  have htop : Reads (String.join (o.top.map integerLine)).toList
      (assignments (integerNodes o.top)) := by
    refine .integers hnamed.bareTop fun e he => hfits.fit64_eq ?_
    exact List.mem_append_left _ (List.mem_map_of_mem he)
  have hsections : Reads (o.sections.flatMap fun s => (sectionText s).toList)
      (o.sections.flatMap fun s => .header [s.1] :: assignments (integerNodes s.2)) := by
    refine .flatMap fun s hs => ?_
    obtain ⟨hname, hbare⟩ := hnamed.bareSections s hs
    refine .section hname hbare fun e he => hfits.fit64_eq ?_
    exact List.mem_append_right _ (List.mem_flatMap.mpr ⟨s, hs, List.mem_map_of_mem he⟩)
  have hjoin : (String.join (o.sections.map sectionText)).toList =
      o.sections.flatMap fun s => (sectionText s).toList := by
    rw [String.toList_join, List.flatMap_map]
  unfold text lines
  rw [String.toList_append, hjoin]
  exact htop.append hsections

/-- The text of an outline does not start with a byte order mark. -/
theorem text_ne_mark (hnamed : o.WellNamed) (cs : List Char) :
    o.text.toList ≠ byteOrderMark :: cs := by
  -- It starts with a name, with a line end, or not at all.
  obtain ⟨top, sections⟩ := o
  unfold text
  rw [String.toList_append, String.toList_join, String.toList_join]
  cases top with
  | nil =>
    cases sections with
    | nil => simp
    | cons s sections => simp [sectionText, byteOrderMark]
  | cons e top =>
    have hbare := hnamed.bareTop e List.mem_cons_self
    simp only [List.map_cons, List.flatMap_cons, integerLine, String.toList_append,
      List.append_assoc]
    exact hbare.ne_cons (by decide) _ _

/-- The text of an outline is read as its document. -/
theorem read_text (hnamed : o.WellNamed) (hfits : o.Fits) : plain.read o.text = some o.entries := by
  have hlines := linesOf?_of_reads (reads_text hnamed hfits) (text_ne_mark hnamed)
  show ((linesOf? o.text).bind ofLines?).map Node.entries = _
  rw [hlines, Option.bind_some, ofLines?_lines hnamed, Option.map_some, entries_nodes]

/-! ## Outlines of documents -/

/-- The integers under keys are found again. -/
theorem integersOf?_integerEntries (pairs : Entries Int) :
    integersOf? (integerEntries pairs) = some pairs := by
  induction pairs with
  | nil => rfl
  | cons e pairs ih =>
    show (integersOf? (integerEntries pairs)).map _ = _
    rw [ih]
    rfl

/-- The outline of what an outline gives is the outline itself. -/
theorem ofEntries?_entries (o : Outline) : ofEntries? o.entries = some o := by
  obtain ⟨top, sections⟩ := o
  -- The keys before the first header come off first, then a header with the keys under it.
  induction top with
  | nil =>
    induction sections with
    | nil => rfl
    | cons s sections ih =>
      show (integersOf? (integerEntries s.2)).bind
        (fun pairs => (ofEntries? (entries ⟨[], sections⟩)).bind _) = _
      rw [integersOf?_integerEntries, ih]
      rfl
  | cons e top ih =>
    show (ofEntries? (entries ⟨top, sections⟩)).map _ = _
    rw [ih]
    rfl

/-- What an outline gives is written if its integers fit. -/
theorem write?_entries (hnamed : o.WellNamed) :
    write? o.entries = if o.Fits then some o.text else none := by
  unfold write?
  rw [ofEntries?_entries]
  simp [hnamed]

end Outline

/-! ## The library -/

/-- A word that is given as an integer is read. -/
theorem word?_integer (w : UInt64) : Value.word? (.integer w.toNat) = some w := by
  unfold Value.word?
  dsimp only
  rw [if_pos (Int.natCast_nonneg _), Int.toNat_natCast, UInt64.ofNat_toNat]

/-- A number of 32 bits that is given as an integer is read. -/
theorem int32?_integer (x : Int32) : Value.int32? (.integer x.toInt) = some x := by
  unfold Value.int32?
  dsimp only
  rw [if_pos ⟨x.minValue_le_toInt, x.toInt_le⟩, Int32.ofInt_toInt]

/-- The library of the project can be relied on, where a text denotes what it is read as. -/
theorem plain_spec : plain.Spec fun text entries => plain.read text = some entries where
  denotes hnamed hfits := Outline.read_text hnamed hfits
  reads h := h
  writes {o} hnamed hfits := by
    refine ⟨o.text, ?_, Outline.read_text hnamed hfits⟩
    show write? o.entries = _
    rw [Outline.write?_entries hnamed, if_pos hfits]
  refuses {o} hfits := by
    show write? o.entries = none
    unfold write?
    rw [Outline.ofEntries?_entries]
    exact if_neg fun h => hfits h.2
  word := ⟨fun _ => rfl, word?_integer⟩
  int32 := ⟨fun _ => rfl, int32?_integer⟩
  encodeRecord _ _ := rfl
  decodeRecord? _ _ _ _ := rfl

end Transposition.Toml
