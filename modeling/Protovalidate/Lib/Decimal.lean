import Mathlib.Algebra.Order.Field.Rat
import Mathlib.Data.List.TakeDrop
import Protovalidate.Lib.Numeral

/-!
# Decimal numbers

A decimal number is a sign, whole digits, and digits after a point. It is read
from the left and ends at the first character that it does not need.
-/

namespace Numeral

/-- What of a text satisfies a predicate, and the rest of it. -/
theorem span_append {p : Char → Bool} {s rest : List Char} (taken : ∀ c ∈ s, p c = true)
    (stops : ∀ c, rest.head? = some c → p c = false) : (s ++ rest).span p = (s, rest) := by
  have none : rest.takeWhile p = [] ∧ rest.dropWhile p = rest := by
    cases rest with
    | nil => exact ⟨rfl, rfl⟩
    | cons c rest =>
      have stop := stops c rfl
      simp [stop]
  rw [List.span_eq_takeWhile_dropWhile, List.takeWhile_append_of_pos taken,
    List.dropWhile_append_of_pos taken, none.1, none.2, List.append_nil]

/-- Digits, up to the first other character. -/
def readDigits (s : List Char) : Option (List Char × List Char) :=
  let (digits, rest) := s.span Char.isDigit
  if digits.isEmpty then none else some (digits, rest)

/-- Where digits end. -/
def NoDigit (s : List Char) : Prop := ∀ c, s.head? = some c → c.isDigit = false

theorem readDigits_append {s rest : List Char} (nonempty : s ≠ []) (digits : ∀ c ∈ s, c.isDigit)
    (stops : NoDigit rest) : readDigits (s ++ rest) = some (s, rest) := by
  have full : s.isEmpty = false := by simpa using nonempty
  simp only [readDigits, span_append digits stops, full, Bool.false_eq_true, if_false]

/-- A number as it is written. -/
structure Decimal where
  negative : Bool
  whole : List Char
  part : List Char
  deriving DecidableEq, Repr

namespace Decimal

/-- No zero that could be left out is written. -/
structure Canonical (d : Decimal) : Prop where
  whole : Numeral.Canonical d.whole
  part : ∀ c ∈ d.part, c.isDigit
  last : d.part.getLast? ≠ some '0'

def chars (d : Decimal) : List Char :=
  (if d.negative then ['-'] else []) ++ d.whole ++
    (if d.part.isEmpty then [] else '.' :: d.part)

/-- What a number is worth. -/
def value (d : Decimal) : Rat :=
  (if d.negative then -1 else 1) *
    (Nat.ofDigitChars 10 d.whole 0 + Nat.ofDigitChars 10 d.part 0 / 10 ^ d.part.length)

/-- The digits after a point, if there is one. -/
def readPart : List Char → Option (List Char × List Char)
  | '.' :: s => readDigits s
  | s => some ([], s)

def readUnsigned (negative : Bool) (s : List Char) : Option (Decimal × List Char) := do
  let (whole, s) ← readDigits s
  let (part, s) ← readPart s
  return (⟨negative, whole, part⟩, s)

def read : List Char → Option (Decimal × List Char)
  | '-' :: s => readUnsigned true s
  | s => readUnsigned false s

variable {d : Decimal} {s rest : List Char}

theorem readPart_other (other : rest.head? ≠ some '.') : readPart rest = some ([], rest) := by
  cases rest with
  | nil => rfl
  | cons c rest =>
    rw [readPart]
    rintro _ ⟨rfl, rfl⟩
    exact other rfl

theorem read_other (other : s.head? ≠ some '-') : read s = readUnsigned false s := by
  cases s with
  | nil => rfl
  | cons c s =>
    rw [read]
    rintro _ ⟨rfl, rfl⟩
    exact other rfl

/-- The digits after the point are read back. -/
theorem readPart_append (part : ∀ c ∈ d.part, c.isDigit) (ends : NoDigit rest)
    (point : rest.head? ≠ some '.') :
    readPart ((if d.part.isEmpty then [] else '.' :: d.part) ++ rest) = some (d.part, rest) := by
  by_cases none : d.part = []
  · simpa [none] using readPart_other point
  · have full : d.part.isEmpty = false := by simpa using none
    simp only [full, Bool.false_eq_true, if_false, List.cons_append]
    exact readDigits_append none part ends

/-- A number is read back from its text. -/
theorem read_chars (whole : d.whole ≠ []) (digits : ∀ c ∈ d.whole, c.isDigit)
    (part : ∀ c ∈ d.part, c.isDigit) (ends : NoDigit rest) (point : rest.head? ≠ some '.') :
    read (d.chars ++ rest) = some (d, rest) := by
  have after : NoDigit ((if d.part.isEmpty then [] else '.' :: d.part) ++ rest) := by
    by_cases none : d.part = []
    · simpa [none] using ends
    · simp [NoDigit, none]
  have unsigned : ∀ negative, readUnsigned negative (d.whole ++
      ((if d.part.isEmpty then [] else '.' :: d.part) ++ rest)) =
        some (⟨negative, d.whole, d.part⟩, rest) := by
    intro negative
    simp only [readUnsigned, readDigits_append whole digits after, Option.bind_eq_bind,
      Option.bind_some, readPart_append part ends point, Option.pure_def]
  obtain ⟨negative, whole', part'⟩ := d
  cases negative with
  | true =>
    have text : Decimal.chars ⟨true, whole', part'⟩ ++ rest =
        '-' :: (whole' ++ ((if part'.isEmpty then [] else '.' :: part') ++ rest)) := by
      simp [chars]
    rw [text, read]
    exact unsigned true
  | false =>
    have first : (whole' ++ ((if part'.isEmpty then [] else '.' :: part') ++ rest)).head? ≠
        some '-' := by
      obtain ⟨c, more, rfl⟩ := List.exists_cons_of_ne_nil whole
      intro sign
      cases sign
      exact absurd (digits '-' List.mem_cons_self) (by decide)
    have text : Decimal.chars ⟨false, whole', part'⟩ ++ rest =
        whole' ++ ((if part'.isEmpty then [] else '.' :: part') ++ rest) := by
      simp [chars]
    rw [text, read_other first]
    exact unsigned false

end Decimal

end Numeral
