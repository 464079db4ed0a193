import Mathlib.Data.List.Basic
import Mathlib.Data.List.DropRight

/-!
# Python strings

A Python string is a list of characters here. This file has the operations that lists do not
have, or that differ from the list operation of the same name.

- `sliceTo xs stop` is `xs[:stop]`, where a negative `stop` counts from the end.
- `strip` and `isDigits` are `strip()` and `isdigit()` of a string of bytes.
-/

namespace PyString

variable {text : List Char} {c : Char} {p : Char → Bool}

variable {α : Type*}

/-- `xs[:stop]` -/
def sliceTo (xs : List α) (stop : Int) : List α :=
  if 0 ≤ stop then xs.take stop.toNat else xs.take (xs.length - stop.natAbs)

theorem length_sliceTo_of_nonneg (xs : List α) {stop : Int} (h : 0 ≤ stop) :
    ((sliceTo xs stop).length : Int) = min stop xs.length := by
  rw [sliceTo, if_pos h, List.length_take]
  omega

/-- `xs[:-1]` drops the last element. -/
theorem length_sliceTo_neg_one (xs : List α) : (sliceTo xs (-1)).length = xs.length - 1 := by
  rw [sliceTo, if_neg (by omega), List.length_take]
  omega

/-! ## Characters -/

/-- The white space that `strip()` removes. -/
def isSpace (c : Char) : Bool := c ∈ [' ', '\t', '\n', '\r', '\x0b', '\x0c']

/-- `text.strip()` -/
def strip (text : List Char) : List Char := (text.dropWhile isSpace).rdropWhile isSpace

/-- `text.isdigit()` -/
def isDigits (text : List Char) : Bool := text ≠ [] ∧ text.all Char.isDigit

theorem not_isSpace_of_isDigit (h : c.isDigit) : isSpace c = false := by
  by_contra hspace
  simp only [isSpace, Bool.not_eq_false, decide_eq_true_eq, List.mem_cons, List.not_mem_nil,
    or_false] at hspace
  rcases hspace with rfl | rfl | rfl | rfl | rfl | rfl <;> exact absurd h (by decide)

theorem strip_eq_self (h : ∀ c ∈ text, isSpace c = false) : strip text = text := by
  have hdrop : ∀ l : List Char, (∀ c ∈ l, isSpace c = false) → l.dropWhile isSpace = l := by
    intro l hl
    cases l with
    | nil => rfl
    | cons c cs => rw [List.dropWhile_cons_of_neg (by simp [hl c (by simp)])]
  rw [strip, hdrop text h, List.rdropWhile, hdrop _ (by simpa using h), List.reverse_reverse]

theorem strip_subset (text : List Char) : strip text ⊆ text :=
  ((List.rdropWhile_prefix _ _).sublist.trans (List.dropWhile_sublist _)).subset

/-- Only white space is stripped. -/
theorem mem_strip (h : c ∈ text) (hc : isSpace c = false) : c ∈ strip text := by
  have hdrop : ∀ {l : List Char}, c ∈ l → c ∈ l.dropWhile isSpace := by
    intro l hl
    rw [← List.takeWhile_append_dropWhile (p := isSpace) (l := l), List.mem_append] at hl
    refine hl.resolve_left fun hmem => ?_
    have := List.mem_takeWhile_imp hmem
    rw [hc] at this
    cases this
  rw [strip, List.rdropWhile, List.mem_reverse]
  exact hdrop (List.mem_reverse.mpr (hdrop h))

theorem isDigits_iff : isDigits text ↔ text ≠ [] ∧ ∀ c ∈ text, c.isDigit := by
  simp [isDigits]

theorem isDigits_eq_false (hc : c.isDigit = false)
    (h : text.head? = some c) : isDigits text = false := by
  cases text with
  | nil => cases h
  | cons c' cs =>
    obtain rfl : c' = c := Option.some.inj h
    simp [isDigits, hc]

/-- Stripping from the right keeps a first character that is not stripped. -/
theorem head?_rdropWhile (hc : p c = false)
    (h : text.head? = some c) : (text.rdropWhile p).head? = some c := by
  cases hr : text.rdropWhile p with
  | nil =>
    have := List.rdropWhile_eq_nil_iff.mp hr c (List.mem_of_head? h)
    rw [hc] at this
    cases this
  | cons c' cs =>
    obtain ⟨t, ht⟩ := List.rdropWhile_prefix p text
    rw [hr] at ht
    rw [← ht] at h
    exact h

/-- Stripping a character from the right of a string of digits leaves a string of digits, if
    another digit is in it. -/
theorem isDigits_rdropWhile (h : isDigits text)
    (hmem : c ∈ text) (hc : p c = false) : isDigits (text.rdropWhile p) := by
  refine isDigits_iff.mpr ⟨fun hnil => ?_, fun d hd => ?_⟩
  · have := List.rdropWhile_eq_nil_iff.mp hnil c hmem
    rw [hc] at this
    cases this
  · exact (isDigits_iff.mp h).2 d ((List.rdropWhile_prefix p text).subset hd)

end PyString
