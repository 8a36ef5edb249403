/-!
# Replacement parameters

The three numbers that tune which entries give way to a write: how far a shallower result may still
overwrite a deeper one, from which depth a refused write wears an entry down, and how much an old
entry is worth. Each has a range of accepted values, and `Replacement.validate` reports the first
one outside it.
-/

namespace Transposition

/-- The tuning of the rules for overwriting, wearing down and evicting. -/
structure Replacement where
  /-- A write of a non-exact bound under the stored key overwrites when its biased depth, plus two
  for a principal-variation node, exceeds the stored one less this slack. -/
  depthSlack : Int32
  /-- A stored non-exact entry at least this deep loses one ply to a write that it resists. -/
  decayThreshold : Int32
  /-- What each unit of age takes off the worth of an entry. -/
  ageWeight : Int32
  deriving DecidableEq, Repr

/-- The name of one of the three replacement parameters. -/
inductive Parameter
  | depthSlack
  | decayThreshold
  | ageWeight
  deriving DecidableEq, Repr

namespace Parameter

/-- The parameters in the order in which they are checked and written. -/
def all : List Parameter := [depthSlack, decayThreshold, ageWeight]

/-- The parameter's name in configurations and messages. -/
def name : Parameter → String
  | depthSlack => "depth_slack"
  | decayThreshold => "decay_threshold"
  | ageWeight => "age_weight"

/-- The smallest accepted value. -/
def lowest : Parameter → Int32
  | depthSlack => -255
  | decayThreshold => -255
  | ageWeight => 0

/-- The largest accepted value. -/
def highest : Parameter → Int32
  | depthSlack => 255
  | decayThreshold => 255
  | ageWeight => 1024

/-- Whether a value lies in the accepted range. -/
def Accepts (p : Parameter) (value : Int32) : Prop :=
  p.lowest.toInt ≤ value.toInt ∧ value.toInt ≤ p.highest.toInt

instance (p : Parameter) (value : Int32) : Decidable (p.Accepts value) :=
  inferInstanceAs (Decidable (_ ∧ _))

end Parameter

/-- A replacement parameter with a value outside its accepted range. -/
structure RangeError where
  /-- The offending parameter. -/
  parameter : Parameter
  /-- Its value. -/
  value : Int32
  deriving DecidableEq, Repr

/-- The wording of a range error. -/
def RangeError.message (e : RangeError) : String :=
  "replacement parameter " ++ e.parameter.name ++ " = " ++ toString e.value.toInt ++
    " is outside " ++ toString e.parameter.lowest.toInt ++ "..=" ++
    toString e.parameter.highest.toInt

namespace Replacement

/-- The parameters of a table for which none are given. -/
def default : Replacement := ⟨4, 5, 2⟩

instance : Inhabited Replacement := ⟨default⟩

/-- The value of a parameter. -/
def get (r : Replacement) : Parameter → Int32
  | .depthSlack => r.depthSlack
  | .decayThreshold => r.decayThreshold
  | .ageWeight => r.ageWeight

/-- Gives a parameter a value. -/
def set (p : Parameter) (value : Int32) (r : Replacement) : Replacement :=
  match p with
  | .depthSlack => { r with depthSlack := value }
  | .decayThreshold => { r with decayThreshold := value }
  | .ageWeight => { r with ageWeight := value }

/-- Whether all three parameters lie in their accepted ranges. -/
def Valid (r : Replacement) : Prop := ∀ p ∈ Parameter.all, p.Accepts (r.get p)

instance (r : Replacement) : Decidable r.Valid := inferInstanceAs (Decidable (∀ _ ∈ _, _))

/-- The first parameter, in the order of `Parameter.all`, whose value is out of range. -/
def firstOutOfRange? (r : Replacement) : Option Parameter :=
  Parameter.all.find? fun p => decide ¬p.Accepts (r.get p)

/-- Accepts parameters within their ranges and reports the first that is not. -/
def validate (r : Replacement) : Except RangeError Unit :=
  match r.firstOutOfRange? with
  | some p => .error ⟨p, r.get p⟩
  | none => .ok ()

/-- Three parameters, if all are in range. -/
def make (depthSlack decayThreshold ageWeight : Int32) : Except RangeError Replacement :=
  let r : Replacement := ⟨depthSlack, decayThreshold, ageWeight⟩
  r.validate.map fun _ => r

/-- Validation succeeds exactly on parameters within their ranges. -/
theorem validate_eq_ok_iff (r : Replacement) : r.validate = .ok () ↔ r.Valid := by
  unfold validate firstOutOfRange? Valid
  split
  · rename_i p h
    simp only [reduceCtorEq, false_iff]
    intro hv
    have := List.find?_some h
    exact absurd (hv p (List.mem_of_find?_eq_some h)) (by simpa using this)
  · rename_i h
    simpa using h

/-- The error of a validation is that of the first parameter, in the order of `Parameter.all`, whose
value is out of range. -/
theorem validate_eq_error_iff (r : Replacement) (e : RangeError) :
    r.validate = .error e ↔
      ∃ earlier p later, Parameter.all = earlier ++ p :: later ∧
        (∀ q ∈ earlier, q.Accepts (r.get q)) ∧ ¬p.Accepts (r.get p) ∧ e = ⟨p, r.get p⟩ := by
  unfold validate firstOutOfRange?
  constructor
  · intro h
    split at h
    · rename_i p hfirst
      rw [List.find?_eq_some_iff_append] at hfirst
      obtain ⟨hp, earlier, later, horder, hearlier⟩ := hfirst
      exact ⟨earlier, p, later, horder, by simpa using hearlier, by simpa using hp,
        (Except.error.inj h).symm⟩
    · cases h
  · rintro ⟨earlier, p, later, horder, hearlier, hp, rfl⟩
    have hfirst : Parameter.all.find? (fun p => decide ¬p.Accepts (r.get p)) = some p := by
      rw [List.find?_eq_some_iff_append]
      exact ⟨by simpa using hp, earlier, later, horder, by simpa using hearlier⟩
    rw [hfirst]

end Replacement

end Transposition
