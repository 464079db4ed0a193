import Mathlib.Algebra.Field.Rat
import Urb.ForStd.PyString

/-!
# Numerals of Python

`int?` and `float?` are `int(text)` and `float(text)` for a string of bytes in Python 2; they are
`none` where these raise `ValueError`. The number that `float?` gives is the one that the text
denotes; it is not rounded to a double yet.
-/

namespace PyNumber

variable {text : List Char}

open PyString

/-- The number that a string of digits denotes. -/
def natOf (digits : List Char) : Nat := digits.foldl (fun n c => 10 * n + (c.toNat - '0'.toNat)) 0

/-- The sign in front of a number, and what comes after it. -/
def splitSign : List Char → Int × List Char
  | '-' :: text => (-1, text)
  | '+' :: text => (1, text)
  | text => (1, text)

/-- `int(text)` -/
def int? (text : List Char) : Option Int :=
  let (sign, body) := splitSign (strip text)
  if isDigits body then some (sign * natOf body) else none

/-- A numeral with an optional sign and an optional point. -/
def decimal? (text : List Char) : Option ℚ :=
  let (sign, body) := splitSign text
  let whole := body.takeWhile Char.isDigit
  match body.dropWhile Char.isDigit with
  | [] => if whole = [] then none else some (sign * natOf whole)
  | '.' :: fraction =>
    if fraction.all Char.isDigit ∧ (whole ≠ [] ∨ fraction ≠ []) then
      some (sign * natOf (whole ++ fraction) / 10 ^ fraction.length)
    else none
  | _ => none

/-- A value of type `float`. -/
inductive PyFloat where
  | finite (q : ℚ)
  | infinite (negative : Bool)
  | nan

/-- The exponent of a numeral. -/
def exponent? (text : List Char) : Option Int :=
  let (sign, body) := splitSign text
  if isDigits body then some (sign * natOf body) else none

/-- The values that have a name. -/
def special? (text : List Char) : Option PyFloat :=
  let (sign, body) := splitSign text
  let word := body.map Char.toLower
  if word = "inf".toList ∨ word = "infinity".toList then some (.infinite (sign < 0))
  else if word = "nan".toList then some .nan
  else none

/-- `float(text)`, before the number is rounded. -/
def float? (text : List Char) : Option PyFloat :=
  match decimal? (strip text) with
  | some q => some (.finite q)
  | none =>
    let isE (c : Char) : Bool := c = 'e' ∨ c = 'E'
    match (strip text).dropWhile (!isE ·) with
    | [] => special? (strip text)
    | _ :: exponent =>
      match decimal? ((strip text).takeWhile (!isE ·)), exponent? exponent with
      | some q, some n => some (.finite (q * 10 ^ n))
      | _, _ => none

theorem splitSign_of_isDigits (h : isDigits text) : splitSign text = (1, text) := by
  obtain ⟨hne, hall⟩ := isDigits_iff.mp h
  unfold splitSign
  split
  · exact absurd (hall '-' (by simp)) (by decide)
  · exact absurd (hall '+' (by simp)) (by decide)
  · rfl

/-- `int` reads what `isdigit` accepts. -/
theorem int?_of_isDigits (h : isDigits text) : int? text = some (natOf text : Int) := by
  have hall := (isDigits_iff.mp h).2
  rw [int?, strip_eq_self fun c hc => not_isSpace_of_isDigit (hall c hc), splitSign_of_isDigits h]
  simp [h]

/-- A numeral without a point. -/
theorem decimal?_of_isDigits (h : isDigits (splitSign text).2) :
    decimal? text = some ((splitSign text).1 * natOf (splitSign text).2 : ℚ) := by
  obtain ⟨hne, hall⟩ := isDigits_iff.mp h
  have htake : (splitSign text).2.takeWhile Char.isDigit = (splitSign text).2 :=
    List.takeWhile_eq_self_iff.mpr hall
  have hdrop : (splitSign text).2.dropWhile Char.isDigit = [] := List.dropWhile_eq_nil_iff.mpr hall
  simp [decimal?, htake, hdrop, hne]

/-- `float` reads what `int` reads. -/
theorem float?_of_int? {n : Int} (h : int? text = some n) : (float? text).isSome := by
  unfold int? at h
  dsimp only at h
  split at h
  · rename_i hdigits
    rw [float?, decimal?_of_isDigits hdigits]
    rfl
  · cases h

/-- A numeral without a point is a string of digits after its sign. -/
theorem isDigits_of_decimal? {q : ℚ} (h : decimal? text = some q)
    (hpoint : '.' ∉ text) : isDigits (splitSign text).2 := by
  have hbody : '.' ∉ (splitSign text).2 := by
    unfold splitSign
    split <;> simp_all
  unfold decimal? at h
  dsimp only at h
  split at h
  · rename_i hdrop
    have hall := List.dropWhile_eq_nil_iff.mp hdrop
    rw [List.takeWhile_eq_self_iff.mpr hall] at h
    split at h
    · cases h
    · rename_i hne
      exact isDigits_iff.mpr ⟨hne, hall⟩
  · rename_i fraction hdrop
    have : '.' ∈ (splitSign text).2.dropWhile Char.isDigit := by simp [hdrop]
    exact absurd ((List.dropWhile_sublist _).subset this) hbody
  · cases h

end PyNumber
