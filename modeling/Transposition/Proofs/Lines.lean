import Transposition.Proofs.Numerals
import Transposition.Toml.Outline

/-!
# Written lines

What the lines of a written document are read as: an integer under its key on a line of its own as an
assignment, a name in brackets as a header, and an empty line as nothing. The reader is run with as many
steps as the text has characters. Written lines take at most that many, whatever text follows (`Reads`),
so lines can be put one after the other.
-/

namespace Transposition.Toml

/-! ## Names -/

/-- A character of a name is none that cannot stand in one. -/
theorem IsBareName.ne_cons {name : String} (h : IsBareName name) {c : Char}
    (hc : isBare c = false) (cs rest : List Char) : name.toList ++ rest ≠ c :: cs := by
  intro heq
  obtain ⟨d, more, hname⟩ := List.exists_cons_of_ne_nil h.nonempty
  have hbare := h.bare d (hname ▸ List.mem_cons_self)
  rw [hname] at heq
  rw [(List.cons.inj heq).1, hc] at hbare
  cases hbare

section Name

variable {name : String} (h : IsBareName name) {stop : Char} (hstop : isBare stop = false)
  (cs : List Char)
include h

/-- No blanks stand in front of a name. -/
theorem skipBlanks_name : skipBlanks (name.toList ++ cs) = name.toList ++ cs :=
  skipBlanks_eq_self (fun _ => h.ne_cons (by decide) _ _) fun _ => h.ne_cons (by decide) _ _

/-- A name does not start with a line end. -/
theorem newline?_name : newline? (name.toList ++ cs) = none := by
  unfold newline?
  split
  · rename_i heq
    exact absurd heq (h.ne_cons (by decide) _ _)
  · rename_i heq
    exact absurd heq (h.ne_cons (by decide) _ _)
  · rfl

include hstop

/-- A name ends before a character that cannot stand in one. -/
theorem name?_name : name? (name.toList ++ stop :: cs) = some (name, stop :: cs) := by
  have htake : (name.toList ++ stop :: cs).takeWhile isBare = name.toList := by
    rw [List.takeWhile_append_of_pos h.bare, List.takeWhile_cons_of_neg (by simp [hstop]),
      List.append_nil]
  have hdrop : (name.toList ++ stop :: cs).dropWhile isBare = stop :: cs := by
    rw [List.dropWhile_append_of_pos h.bare, List.dropWhile_cons_of_neg (by simp [hstop])]
  unfold name?
  split
  · rename_i heq
    exact absurd heq (h.ne_cons (by decide) _ _)
  · rename_i heq
    exact absurd heq (h.ne_cons (by decide) _ _)
  · dsimp only
    rw [htake, hdrop, if_neg (by simpa using h.nonempty), String.ofList_toList]

/-- A name that no dot follows is a path. -/
theorem path?_name {c : Char} {more : List Char} (hskip : skipBlanks (stop :: cs) = c :: more)
    (hdot : c ≠ '.') : path? (name.toList ++ stop :: cs) = some ([name], c :: more) := by
  show names? (78 + 1) _ = _
  unfold names?
  rw [skipBlanks_name h, name?_name h hstop]
  dsimp only
  rw [hskip]
  split
  · rename_i heq
    exact absurd (List.cons.inj heq).1 hdot
  · rfl

end Name

/-! ## Lines -/

/-- Whatever text follows, the characters are read as the lines, in at most as many steps as there are
characters. -/
def Reads (cs : List Char) (ls : List Line) : Prop :=
  ∃ steps ≤ cs.length, ∀ fuel rest,
    lines? (fuel + steps) (cs ++ rest) = (lines? fuel rest).map (ls ++ ·)

namespace Reads

/-- No characters are no lines. -/
theorem nil : Reads [] [] := ⟨0, Nat.le_refl 0, fun fuel rest => by simp⟩

/-- Lines one after the other. -/
theorem append {cs cs' : List Char} {ls ls' : List Line} (h : Reads cs ls) (h' : Reads cs' ls') :
    Reads (cs ++ cs') (ls ++ ls') := by
  obtain ⟨steps, hsteps, hread⟩ := h
  obtain ⟨steps', hsteps', hread'⟩ := h'
  refine ⟨steps' + steps, by rw [List.length_append]; omega, fun fuel rest => ?_⟩
  rw [List.append_assoc, ← Nat.add_assoc, hread, hread', Option.map_map]
  congr 1
  funext more
  exact (List.append_assoc ls ls' more).symm

/-- Lines for each item of a list. -/
theorem flatMap {α : Type} {text : α → List Char} {lines : α → List Line} {l : List α}
    (h : ∀ a ∈ l, Reads (text a) (lines a)) : Reads (l.flatMap text) (l.flatMap lines) := by
  induction l with
  | nil => exact nil
  | cons a l ih =>
    rw [List.flatMap_cons, List.flatMap_cons]
    exact (h a List.mem_cons_self).append (ih fun b hb => h b (List.mem_cons_of_mem a hb))

/-- An empty line. -/
theorem newline : Reads ['\n'] [] := by
  refine ⟨1, Nat.le_refl 1, fun fuel rest => ?_⟩
  show lines? fuel rest = _
  simp

/-- A line that starts with a character that neither starts a comment nor is a blank. -/
theorem of_line? {cs : List Char} {line : Line} (hskip : ∀ rest, skipBlanks (cs ++ rest) = cs ++ rest)
    (hcomment : ∀ rest more, cs ++ rest ≠ '#' :: more) (hend : ∀ rest, newline? (cs ++ rest) = none)
    (hline : ∀ rest, line? (cs ++ rest) = some (line, rest)) : Reads cs [line] := by
  -- The line takes one step, and it has a character, since nothing is read of an empty text.
  have hlength : 1 ≤ cs.length := by
    cases cs with
    | nil => cases hline []
    | cons c cs => simp
  refine ⟨1, hlength, fun fuel rest => ?_⟩
  conv_lhs => unfold lines?
  rw [hskip]
  split
  · rename_i heq
    rw [List.append_eq_nil_iff] at heq
    rw [heq.1] at hlength
    cases hlength
  · rename_i heq
    exact absurd heq (hcomment _ _)
  · rw [hend, hline]
    rfl

/-- A header line. -/
theorem header {name : String} (h : IsBareName name) :
    Reads ('[' :: name.toList ++ [']', '\n']) [.header [name]] := by
  refine of_line? (fun rest => rfl) (fun rest more => by simp) (fun rest => rfl) fun rest => ?_
  have hpath : path? (name.toList ++ ']' :: '\n' :: rest) = some ([name], ']' :: '\n' :: rest) :=
    path?_name h (by decide) _ rfl (by decide)
  have hheader : headerPath? [']'] (name.toList ++ ']' :: '\n' :: rest) = some ([name], rest) := by
    unfold headerPath?
    rw [hpath]
    rfl
  have htext : '[' :: name.toList ++ [']', '\n'] ++ rest =
      '[' :: (name.toList ++ ']' :: '\n' :: rest) := by simp
  rw [htext]
  unfold line?
  split
  · rename_i heq
    exact absurd (List.cons.inj heq).2 (h.ne_cons (by decide) _ _)
  · rename_i heq
    obtain rfl := (List.cons.inj heq).2
    rw [hheader]
    rfl
  · rename_i hne
    exact absurd rfl (hne _)

/-- An integer under its key on a line of its own, if 64 bits hold it. -/
theorem integer {name : String} (h : IsBareName name) {v : Int} (hv : fit64 v = some v) :
    Reads (integerLine (name, v)).toList [.assign [name] (.integer v)] := by
  have htext (rest : List Char) : (integerLine (name, v)).toList ++ rest =
      name.toList ++ ' ' :: '=' :: ' ' :: ((toString v).toList ++ '\n' :: rest) := by
    simp [integerLine]
  refine of_line? (fun rest => ?_) (fun rest more => ?_) (fun rest => ?_) fun rest => ?_
  · rw [htext, skipBlanks_name h]
  · rw [htext]
    exact h.ne_cons (by decide) _ _
  · rw [htext, newline?_name h]
  · rw [htext]
    have hpath : path? (name.toList ++ ' ' :: '=' :: ' ' :: ((toString v).toList ++ '\n' :: rest)) =
        some ([name], '=' :: ' ' :: ((toString v).toList ++ '\n' :: rest)) :=
      path?_name h (by decide) _ rfl (by decide)
    have hpair : pair? (value? maxNesting)
        (name.toList ++ ' ' :: '=' :: ' ' :: ((toString v).toList ++ '\n' :: rest)) =
        some (([name], .integer v), '\n' :: rest) := by
      unfold pair?
      rw [hpath, Option.bind_eq_bind, Option.bind_some]
      show (value? maxNesting (skipBlanks ((toString v).toList ++ '\n' :: rest))).bind _ = _
      rw [value?_printed _ hv]
      rfl
    unfold line?
    split
    · rename_i heq
      exact absurd heq (h.ne_cons (by decide) _ _)
    · rename_i heq
      exact absurd heq (h.ne_cons (by decide) _ _)
    · rw [hpair]
      rfl

end Reads

/-- A text of written lines is read as these lines, if it does not start with a byte order mark. -/
theorem linesOf?_of_reads {text : String} {ls : List Line} (h : Reads text.toList ls)
    (hmark : ∀ cs, text.toList ≠ byteOrderMark :: cs) : linesOf? text = some ls := by
  obtain ⟨steps, hsteps, hread⟩ := h
  -- One step at least is left behind the lines, and it finds the end of the text.
  obtain ⟨fuel, hfuel⟩ : ∃ fuel, text.toList.length + 1 = fuel + 1 + steps :=
    ⟨text.toList.length - steps, by omega⟩
  have hlines := hread (fuel + 1) []
  rw [List.append_nil, ← hfuel] at hlines
  have htext : lines? (text.toList.length + 1) text.toList = some ls := by
    rw [hlines]
    exact congrArg some (List.append_nil ls)
  unfold linesOf?
  cases hcs : text.toList with
  | nil => rwa [hcs] at htext
  | cons c rest =>
    have hc : c ≠ byteOrderMark := by
      rintro rfl
      exact hmark rest hcs
    dsimp only
    rw [if_neg hc]
    rwa [hcs] at htext

end Transposition.Toml
