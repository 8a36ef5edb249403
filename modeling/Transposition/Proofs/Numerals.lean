import Mathlib.Algebra.Group.Int.Defs
import Mathlib.Algebra.Group.Nat.Defs
import Mathlib.Data.List.Basic
import Transposition.Toml.Line

/-!
# Printed integers

An integer is printed in decimal, without leading zeros and with a minus sign if it is negative. Before
a line end, such a numeral is read neither as a date nor as a floating-point number, and it is read back
as the integer if 64 bits hold it (`value?_printed`).
-/

namespace Transposition.Toml

/-- Where no blank stands in front, none is skipped. -/
theorem skipBlanks_eq_self {cs : List Char} (hspace : ∀ more, cs ≠ ' ' :: more)
    (htab : ∀ more, cs ≠ '\t' :: more) : skipBlanks cs = cs := by
  cases cs with
  | nil => rfl
  | cons c cs =>
    have hc : isBlank c = false := by
      have hne : c ≠ ' ' ∧ c ≠ '\t' := by
        constructor
        · rintro rfl
          exact hspace cs rfl
        · rintro rfl
          exact htab cs rfl
      simp [isBlank, hne]
    exact List.dropWhile_cons_of_neg (by simp [hc])

/-! ## Digits -/

/-- A digit is read back. -/
theorem digit?_digitChar {d : Nat} (h : d < 10) : Decimal.digit? d.digitChar = some d := by
  have hall : ∀ d < 10, Decimal.digit? d.digitChar = some d := by decide
  exact hall d h

/-- A character that is a digit is none that is not. -/
theorem digitChar_ne {d : Nat} (h : d < 10) {c : Char} (hc : Decimal.digit? c = none) :
    d.digitChar ≠ c := by
  rintro rfl
  rw [digit?_digitChar h] at hc
  cases hc

/-- Digits, the most significant first and without leading zeros, and the number that they stand
for. -/
structure IsRow (ds : List Nat) (n : Nat) : Prop where
  /-- They are decimal. -/
  lt_ten : ∀ d ∈ ds, d < 10
  /-- They stand for the number. -/
  value : Decimal.valueFrom 10 0 ds = n
  /-- There is a first one, and after a zero nothing follows. -/
  first : ∃ d more, ds = d :: more ∧ (d = 0 → more = [])

/-- A further digit. -/
theorem IsRow.concat {ds : List Nat} {n d : Nat} (h : IsRow ds n) (hn : 0 < n) (hd : d < 10) :
    IsRow (ds ++ [d]) (n * 10 + d) := by
  refine ⟨?_, ?_, ?_⟩
  · intro e he
    rcases List.mem_append.mp he with he | he
    · exact h.lt_ten e he
    · rw [List.mem_singleton.mp he]
      exact hd
  · have hvalue := h.value
    unfold Decimal.valueFrom at hvalue ⊢
    rw [List.foldl_append, hvalue]
    rfl
  · obtain ⟨first, more, rfl, hfirst⟩ := h.first
    refine ⟨first, more ++ [d], rfl, fun hzero => ?_⟩
    -- A row that starts with a zero is one of zero.
    have hvalue := h.value
    rw [hfirst hzero, hzero] at hvalue
    exact absurd hvalue.symm (Nat.pos_iff_ne_zero.mp hn)

/-- A natural is printed as a row of its digits. -/
theorem exists_row (n : Nat) : ∃ ds, Nat.toDigits 10 n = ds.map Nat.digitChar ∧ IsRow ds n := by
  induction n using Nat.strongRecOn with
  | ind n ih =>
    by_cases hn : n < 10
    · refine ⟨[n], Nat.toDigits_of_lt_base hn, ?_, ?_, n, [], rfl, fun _ => rfl⟩
      · simpa using hn
      · simp [Decimal.valueFrom]
    · -- All but the last digit are the row of the tenth part.
      obtain ⟨ds, hds, hrow⟩ := ih (n / 10) (by omega)
      refine ⟨ds ++ [n % 10], ?_, ?_⟩
      · rw [Nat.toDigits_of_base_le (by decide) (by omega), hds, List.map_append]
        rfl
      · have hnext := hrow.concat (by omega) (Nat.mod_lt n (by decide))
        rwa [Nat.div_add_mod'] at hnext

/-- The row of digits before a line end. -/
def rowLine (ds : List Nat) (rest : List Char) : List Char := ds.map Nat.digitChar ++ '\n' :: rest

/-- After a digit the row goes on. -/
theorem rowLine_cons (d : Nat) (ds : List Nat) (rest : List Char) :
    rowLine (d :: ds) rest = d.digitChar :: rowLine ds rest := rfl

/-- A digit that is no underscore is taken. -/
theorem moreDigits_cons {digit? : Char → Option Nat} {c : Char} {d : Nat} (cs : List Char)
    (hc : c ≠ '_') (hd : digit? c = some d) :
    moreDigits digit? (c :: cs) =
      (d :: (moreDigits digit? cs).1, (moreDigits digit? cs).2) := by
  rw [moreDigits.eq_def]
  split
  · rename_i heq
    exact absurd (List.cons.inj heq).1 hc
  · rename_i heq
    obtain ⟨rfl, rfl⟩ := List.cons.inj heq
    rw [hd]
  · rename_i heq
    cases heq

section Row

variable {ds : List Nat} {n : Nat} (rest : List Char)

/-- All digits of a row are taken. -/
theorem moreDigits_rowLine (h : ∀ d ∈ ds, d < 10) :
    moreDigits Decimal.digit? (rowLine ds rest) = (ds, '\n' :: rest) := by
  induction ds with
  | nil =>
    have hend : Decimal.digit? '\n' = none := by decide
    simp [rowLine, moreDigits, hend]
  | cons d ds ih =>
    have hd : d < 10 := h d List.mem_cons_self
    rw [rowLine_cons, moreDigits_cons _ (digitChar_ne hd (by decide)) (digit?_digitChar hd),
      ih fun e he => h e (List.mem_cons_of_mem d he)]

/-- A row of digits is read back. -/
theorem decimal?_rowLine (h : IsRow ds n) :
    decimal? (rowLine ds rest) = some (ds, '\n' :: rest) := by
  obtain ⟨d, more, rfl, hzero⟩ := h.first
  have hd : d < 10 := h.lt_ten d List.mem_cons_self
  rw [rowLine_cons]
  unfold decimal?
  split
  · rename_i heq
    obtain ⟨hchar, rfl⟩ := List.cons.inj heq
    have hd0 : d = 0 := by
      have hread := digit?_digitChar hd
      rw [hchar] at hread
      exact (Option.some.inj hread).symm
    rw [hd0, hzero hd0]
    rfl
  · show (Decimal.digit? d.digitChar).map _ = _
    simp only [digit?_digitChar hd, Option.map_some,
      moreDigits_rowLine rest fun e he => h.lt_ten e (List.mem_cons_of_mem d he)]

end Row

/-! ## Dates and times -/

/-- One item that is not mapped keeps the whole list from being mapped. -/
theorem mapM_eq_none {α β : Type} {f : α → Option β} {l : List α} {a : α} (ha : a ∈ l)
    (hf : f a = none) : l.mapM f = none := by
  induction l with
  | nil => cases ha
  | cons b l ih =>
    rw [List.mapM_cons]
    rcases List.mem_cons.mp ha with rfl | ha
    · rw [hf]
      rfl
    · rw [ih ha]
      cases f b <;> rfl

/-- Where one of the next characters is no digit, no number of that width is read. -/
theorem fixed?_eq_none {width : Nat} (low high : Nat) {cs : List Char} {c : Char}
    (hc : c ∈ cs.take width) (hdigit : Decimal.digit? c = none) :
    fixed? width low high cs = none := by
  have hnatural : Decimal.natural? (cs.take width) = none := by
    unfold Decimal.natural?
    rw [mapM_eq_none hc hdigit, Option.map_none, ite_self]
  unfold fixed?
  dsimp only
  rw [hnatural]
  exact ite_self _

/-- A number of a fixed width takes that many characters. -/
theorem eq_drop_of_fixed? {width low high n : Nat} {cs after : List Char}
    (h : fixed? width low high cs = some (n, after)) : after = cs.drop width := by
  unfold fixed? at h
  grind

section Row

variable {ds : List Nat} {n : Nat} (rest : List Char)

/-- Nothing but a digit and the line end stands in a row of digits. -/
theorem expect?_rowLine (h : ∀ d ∈ ds, d < 10) {c : Char} (hc : Decimal.digit? c = none)
    (hend : c ≠ '\n') : expect? c (rowLine ds rest) = none := by
  cases ds with
  | nil => exact if_neg hend
  | cons d ds => exact if_neg (digitChar_ne (h d List.mem_cons_self) hc).symm

/-- Behind a number of a fixed width the row goes on. -/
theorem expect?_of_fixed? (h : ∀ d ∈ ds, d < 10) {width low high m : Nat} {after : List Char}
    (hfixed : fixed? width low high (rowLine ds rest) = some (m, after)) {c : Char}
    (hc : Decimal.digit? c = none) (hend : c ≠ '\n') : expect? c after = none := by
  obtain rfl := eq_drop_of_fixed? hfixed
  by_cases hwidth : width ≤ ds.length
  · have hdrop : (rowLine ds rest).drop width = rowLine (ds.drop width) rest := by
      unfold rowLine
      rw [List.drop_append_of_le_length (by simpa using hwidth), List.map_drop]
    rw [hdrop]
    exact expect?_rowLine rest (fun d hd => h d (List.mem_of_mem_drop hd)) hc hend
  · -- The line end would be one of the digits.
    have hmem : '\n' ∈ (rowLine ds rest).take width := by
      obtain ⟨more, hmore⟩ : ∃ more, width - ds.length = more + 1 :=
        ⟨width - ds.length - 1, by omega⟩
      unfold rowLine
      rw [List.take_append, List.length_map, hmore, List.take_succ_cons]
      exact List.mem_append_right _ List.mem_cons_self
    rw [fixed?_eq_none low high hmem (by decide)] at hfixed
    cases hfixed

/-- A row of digits starts no date, for lack of a minus, and no time, for lack of a colon. -/
theorem dateTime?_rowLine (h : ∀ d ∈ ds, d < 10) : dateTime? (rowLine ds rest) = none := by
  have hdate : skipDate? (rowLine ds rest) = none := by
    unfold skipDate?
    cases hyear : fixed? 4 0 9999 (rowLine ds rest) with
    | none => rfl
    | some read =>
      obtain ⟨year, after⟩ := read
      have hminus : expect? '-' after = none :=
        expect?_of_fixed? rest h hyear (by decide) (by decide)
      simp [hminus]
  have htime : skipTime? (rowLine ds rest) = none := by
    unfold skipTime?
    cases hhour : fixed? 2 0 23 (rowLine ds rest) with
    | none => rfl
    | some read =>
      obtain ⟨hour, after⟩ := read
      have hcolon : expect? ':' after = none :=
        expect?_of_fixed? rest h hhour (by decide) (by decide)
      simp [hcolon]
  unfold dateTime?
  rw [hdate, htime]
  rfl

/-- A minus sign starts no date and no time. -/
theorem dateTime?_minus (cs : List Char) : dateTime? ('-' :: cs) = none := by
  have hsign {width : Nat} (low high : Nat) :
      fixed? (width + 1) low high ('-' :: cs) = none :=
    fixed?_eq_none low high List.mem_cons_self (by decide : Decimal.digit? '-' = none)
  unfold dateTime? skipDate? skipTime?
  rw [hsign, hsign]
  rfl

end Row

/-! ## Values -/

/-- The digits of a number before a line end, with a minus sign in front if it is negative. -/
def signedLine (negative : Bool) (ds : List Nat) (rest : List Char) : List Char :=
  if negative then '-' :: rowLine ds rest else rowLine ds rest

section Signed

variable (negative : Bool) {ds : List Nat} {n : Nat} (h : IsRow ds n) (rest : List Char)
include h

/-- The sign is read off. -/
theorem sign_signedLine : sign (signedLine negative ds rest) = (negative, rowLine ds rest) := by
  cases negative with
  | true => rfl
  | false =>
    obtain ⟨d, more, rfl, -⟩ := h.first
    have hd : d < 10 := h.lt_ten d List.mem_cons_self
    show sign (d.digitChar :: rowLine more rest) = _
    unfold sign
    split
    · rename_i heq
      exact absurd (List.cons.inj heq).1 (digitChar_ne hd (by decide))
    · rename_i heq
      exact absurd (List.cons.inj heq).1 (digitChar_ne hd (by decide))
    · rfl

omit h in
/-- A word that starts otherwise is not read. -/
theorem word?_eq_none {word : String} {c d : Char} {more cs : List Char}
    (hword : word.toList = c :: more) (hne : c ≠ d) : word? word (d :: cs) = none := by
  unfold word?
  rw [hword, List.isPrefixOf, beq_false_of_ne hne]
  rfl

/-- A numeral is no floating-point number. -/
theorem float?_signedLine : float? (signedLine negative ds rest) = none := by
  obtain ⟨d, more, rfl, -⟩ := h.first
  have hd : d < 10 := h.lt_ten d List.mem_cons_self
  have hinf : word? "inf" (rowLine (d :: more) rest) = none :=
    word?_eq_none (by decide : "inf".toList = ['i', 'n', 'f']) (digitChar_ne hd (by decide)).symm
  have hnan : word? "nan" (rowLine (d :: more) rest) = none :=
    word?_eq_none (by decide : "nan".toList = ['n', 'a', 'n']) (digitChar_ne hd (by decide)).symm
  unfold float?
  rw [sign_signedLine negative h rest]
  dsimp only
  rw [hinf, hnan]
  dsimp only
  -- What follows the digits is the line end, which is neither a point nor an exponent.
  rw [decimal?_rowLine rest h]
  rfl

/-- A numeral is no date and no time. -/
theorem dateTime?_signedLine : dateTime? (signedLine negative ds rest) = none := by
  cases negative with
  | true => exact dateTime?_minus _
  | false => exact dateTime?_rowLine rest h.lt_ten

/-- What a numeral stands for. -/
def signedValue (negative : Bool) (n : Nat) : Int := if negative then -n else n

/-- After a leading zero the line ends, so that a numeral has no base in front. -/
theorem signedLine_ne_prefixed {c : Char} (hc : c ≠ '\n') (cs : List Char) :
    signedLine negative ds rest ≠ '0' :: c :: cs := by
  obtain ⟨d, more, rfl, hzero⟩ := h.first
  cases negative with
  | true =>
    intro heq
    exact absurd (List.cons.inj heq).1 (by decide)
  | false =>
    intro heq
    obtain ⟨hchar, htail⟩ := List.cons.inj heq
    have hd := digit?_digitChar (h.lt_ten d List.mem_cons_self)
    rw [hchar] at hd
    rw [hzero (Option.some.inj hd).symm] at htail
    exact hc (List.cons.inj htail).1.symm

/-- A numeral does not start with a character that is no digit, the minus sign apart. -/
theorem signedLine_ne_cons {c : Char} (hc : Decimal.digit? c = none) (hminus : c ≠ '-')
    (cs : List Char) : signedLine negative ds rest ≠ c :: cs := by
  obtain ⟨d, more, rfl, -⟩ := h.first
  intro heq
  cases negative with
  | true => exact hminus (List.cons.inj heq).1.symm
  | false => exact digitChar_ne (h.lt_ten d List.mem_cons_self) hc (List.cons.inj heq).1

/-- No blanks stand in front of a numeral. -/
theorem skipBlanks_signedLine :
    skipBlanks (signedLine negative ds rest) = signedLine negative ds rest := by
  apply skipBlanks_eq_self
  · exact signedLine_ne_cons negative h rest (by decide) (by decide)
  · exact signedLine_ne_cons negative h rest (by decide) (by decide)

variable (hfit : fit64 (signedValue negative n) = some (signedValue negative n))
include hfit

/-- A numeral is read back as the integer that it stands for, if 64 bits hold it. -/
theorem integer?_signedLine :
    integer? (signedLine negative ds rest) = some (signedValue negative n, '\n' :: rest) := by
  unfold integer?
  -- The first three cases are those of the bases that are not ten.
  split
  · rename_i heq
    exact absurd heq (signedLine_ne_prefixed negative h rest (by decide) _)
  · rename_i heq
    exact absurd heq (signedLine_ne_prefixed negative h rest (by decide) _)
  · rename_i heq
    exact absurd heq (signedLine_ne_prefixed negative h rest (by decide) _)
  · rw [sign_signedLine negative h rest]
    dsimp only
    rw [decimal?_rowLine rest h]
    dsimp only
    rw [h.value]
    show (fit64 (signedValue negative n)).map _ = _
    rw [hfit]
    rfl

/-- A numeral is read as a value that is no list and no table. -/
theorem scalar_signedLine :
    scalar (signedLine negative ds rest) =
      some (.integer (signedValue negative n), '\n' :: rest) := by
  have hdate := dateTime?_signedLine negative h rest
  have hfloat := float?_signedLine negative h rest
  have hinteger := integer?_signedLine negative h rest hfit
  have hhead {x : Char} (hx : Decimal.digit? x = none) (hminus : x ≠ '-') :=
    signedLine_ne_cons negative h rest hx hminus
  unfold scalar
  split
  · rename_i heq
    rw [heq] at hinteger
    cases hinteger
  · rename_i c cs heq
    rw [if_neg, if_neg, if_neg, hdate, hfloat, hinteger]
    · rfl
    · rintro rfl
      exact hhead (by decide) (by decide) cs heq
    · rintro rfl
      exact hhead (by decide) (by decide) cs heq
    · rintro (rfl | rfl)
      · exact hhead (by decide) (by decide) cs heq
      · exact hhead (by decide) (by decide) cs heq

/-- A numeral is read as a value, at whatever level. -/
theorem value?_signedLine (levels : Nat) :
    value? levels (signedLine negative ds rest) =
      some (.integer (signedValue negative n), '\n' :: rest) := by
  unfold value?
  split
  · rename_i heq
    exact absurd heq (signedLine_ne_cons negative h rest (by decide) (by decide) _)
  · rename_i heq
    exact absurd heq (signedLine_ne_cons negative h rest (by decide) (by decide) _)
  · exact scalar_signedLine negative h rest hfit

end Signed

/-! ## Printed integers -/

/-- An integer is printed as its sign and a row of digits. -/
theorem exists_signedLine (v : Int) (rest : List Char) :
    ∃ ds, IsRow ds v.natAbs ∧
      (toString v).toList ++ '\n' :: rest = signedLine (decide (v < 0)) ds rest := by
  obtain ⟨ds, hds, hrow⟩ := exists_row v.natAbs
  refine ⟨ds, hrow, ?_⟩
  rw [Int.toString_eq_repr, Int.repr_eq_if]
  by_cases hv : v < 0
  · have habs : (-v).toNat = v.natAbs := by omega
    rw [if_neg (by omega), habs, String.toList_append, Nat.toList_repr, hds, decide_eq_true hv]
    rfl
  · have habs : v.toNat = v.natAbs := by omega
    rw [if_pos (by omega), habs, Nat.toList_repr, hds, decide_eq_false hv]
    rfl

/-- A numeral stands for the integer that it is printed from. -/
theorem signedValue_natAbs (v : Int) : signedValue (decide (v < 0)) v.natAbs = v := by
  unfold signedValue
  by_cases hv : v < 0
  · rw [decide_eq_true hv, if_pos rfl]
    omega
  · rw [decide_eq_false hv, if_neg Bool.false_ne_true]
    omega

/-- A printed integer is read back before a line end, if 64 bits hold it, and no blank is skipped in
front of it. -/
theorem value?_printed (levels : Nat) {v : Int} (hv : fit64 v = some v) (rest : List Char) :
    value? levels (skipBlanks ((toString v).toList ++ '\n' :: rest)) =
      some (.integer v, '\n' :: rest) := by
  obtain ⟨ds, hrow, hprinted⟩ := exists_signedLine v rest
  have hvalue := signedValue_natAbs v
  rw [hprinted, skipBlanks_signedLine _ hrow]
  have hread := value?_signedLine (decide (v < 0)) hrow rest (by rw [hvalue, hv]) levels
  rwa [hvalue] at hread

end Transposition.Toml
