import Protovalidate.Format
import Protovalidate.Lib.Decimal
import Mathlib.Tactic.FieldSimp

/-!
# Durations as text

A duration prints as a decimal number of seconds, without a zero that could be
left out, and is read back from its text exactly.
-/

namespace Protovalidate

open Numeral

/-- The loop of `fraction`: each zero at the end is dropped, with one digit of
the width. -/
inductive Trims : Nat → Nat → Nat → Nat → Prop
  | stop {width n : Nat} : n % 10 ≠ 0 → Trims width n width n
  | drop {width n width' n' : Nat} : n % 10 = 0 → Trims width (n / 10) width' n' →
    Trims (width + 1) n width' n'

/-- The loop ends before the width is used up. -/
theorem trimZeros_trims {width n : Nat} (positive : 0 < n) (fits : n < 10 ^ width) :
    Trims width n (trimZeros width n).1 (trimZeros width n).2 := by
  induction width generalizing n with
  | zero =>
    rw [Nat.pow_zero] at fits
    omega
  | succ width ih =>
    rw [trimZeros]
    by_cases zero : n % 10 = 0
    · rw [if_pos zero]
      rw [Nat.pow_succ] at fits
      exact .drop zero (ih (by omega) (by omega))
    · rw [if_neg zero]
      exact .stop zero

section Trims
variable {width n width' n' : Nat}

theorem Trims.last (trims : Trims width n width' n') : n' % 10 ≠ 0 := by
  induction trims with
  | stop last => exact last
  | drop _ _ ih => exact ih

/-- What is left is the same fraction. -/
theorem Trims.scaled (trims : Trims width n width' n') :
    width' ≤ width ∧ n = n' * 10 ^ (width - width') := by
  induction trims with
  | stop _ => simp
  | @drop width n width' n' zero _ ih =>
    obtain ⟨less, scaled⟩ := ih
    constructor
    · omega
    · have more : width + 1 - width' = width - width' + 1 := by omega
      rw [more, Nat.pow_succ, ← Nat.mul_assoc, ← scaled]
      omega

/-- It still fits its width. -/
theorem Trims.fits (trims : Trims width n width' n') (fits : n < 10 ^ width) :
    n' < 10 ^ width' := by
  obtain ⟨less, scaled⟩ := trims.scaled
  have split : 10 ^ width = 10 ^ width' * 10 ^ (width - width') := by
    rw [← Nat.pow_add]
    congr 1
    omega
  rw [scaled, split] at fits
  exact Nat.lt_of_mul_lt_mul_right fits

end Trims

theorem digits_length {width n : Nat} (wide : 0 < width) (fits : n < 10 ^ width) :
    (digits n).length ≤ width :=
  (Nat.length_toDigits_le_iff (by decide) wide).mpr fits

/-- A number in a width, as characters. -/
def paddedDigits (width n : Nat) : List Char :=
  List.replicate (width - (digits n).length) '0' ++ digits n

theorem paddedDigits_length {width n : Nat} (wide : 0 < width) (fits : n < 10 ^ width) :
    (paddedDigits width n).length = width := by
  have short := digits_length wide fits
  rw [paddedDigits, List.length_append, List.length_replicate]
  omega

theorem paddedDigits_digits {width n : Nat} : ∀ c ∈ paddedDigits width n, c.isDigit := by
  intro c member
  rcases List.mem_append.mp member with zero | digit
  · rw [List.eq_of_mem_replicate zero]
    decide
  · exact Nat.isDigit_of_mem_toDigits (by omega) (by omega) digit

theorem paddedDigits_value {width n : Nat} :
    Nat.ofDigitChars 10 (paddedDigits width n) 0 = n := by
  rw [paddedDigits, Nat.ofDigitChars_append, Nat.ofDigitChars_replicate_zero, Nat.mul_zero]
  exact Nat.ofDigitChars_ten_toDigits

theorem digits_last (n : Nat) : (digits n).getLast? = some (n % 10).digitChar := by
  by_cases small : n < 10
  · rw [digits, Nat.toDigits_of_lt_base small, Nat.mod_eq_of_lt small]
    rfl
  · rw [digits, Nat.toDigits_of_base_le (by omega) (by omega)]
    simp

theorem paddedDigits_last {width n : Nat} (nonzero : n % 10 ≠ 0) :
    (paddedDigits width n).getLast? ≠ some '0' := by
  have some : digits n ≠ [] := Nat.toDigits_ne_nil
  rw [paddedDigits, List.getLast?_append_of_ne_nil _ some]
  intro zero
  have value := Nat.toNat_digitChar_sub_48_of_lt_ten (n := n % 10) (by omega)
  have same : (n % 10).digitChar = '0' := by
    rw [← Option.some.injEq, ← digits_last, ← zero]
  rw [same] at value
  have none : '0'.toNat - 48 = 0 := rfl
  omega

/-- The digits of a fraction of a second. -/
def fractionDigits (nanos : Nat) : List Char :=
  if nanos = 0 then [] else paddedDigits (trimZeros 9 nanos).1 (trimZeros 9 nanos).2

/-- A duration, as the number it prints. -/
def durationDecimal (nanos : Int) : Decimal where
  negative := decide (nanos < 0)
  whole := digits (nanos.natAbs / NANOS_PER_SECOND.natAbs)
  part := fractionDigits (nanos.natAbs % NANOS_PER_SECOND.natAbs)

section Fraction
variable {nanos : Nat}

/-- The fraction that is printed, without the zeros it ends in. -/
theorem fraction_trims (nonzero : nanos ≠ 0) (small : nanos < 10 ^ 9) :
    ∃ width n, Trims 9 nanos width n ∧ fractionDigits nanos = paddedDigits width n ∧
      fraction nanos = "." ++ padded width n := by
  refine ⟨_, _, trimZeros_trims (Nat.pos_of_ne_zero nonzero) small, ?_, ?_⟩
  · rw [fractionDigits, if_neg nonzero]
  · rw [fraction, if_neg nonzero]

theorem Trims.wide {width n width' n' : Nat} (trims : Trims width n width' n')
    (fits : n < 10 ^ width) : 0 < width' := by
  by_contra none
  have left := trims.fits fits
  have last := trims.last
  rw [Nat.eq_zero_of_not_pos none] at left
  omega

theorem fractionDigits_length (small : nanos < 10 ^ 9) : (fractionDigits nanos).length ≤ 9 := by
  by_cases zero : nanos = 0
  · simp [fractionDigits, zero]
  · obtain ⟨width, n, trims, written, -⟩ := fraction_trims zero small
    rw [written, paddedDigits_length (trims.wide small) (trims.fits small)]
    exact trims.scaled.1

theorem fractionDigits_digits : ∀ c ∈ fractionDigits nanos, c.isDigit := by
  intro c member
  by_cases zero : nanos = 0
  · simp [fractionDigits, zero] at member
  · rw [fractionDigits, if_neg zero] at member
    exact paddedDigits_digits c member

theorem fractionDigits_last (small : nanos < 10 ^ 9) :
    (fractionDigits nanos).getLast? ≠ some '0' := by
  by_cases zero : nanos = 0
  · simp [fractionDigits, zero]
  · obtain ⟨width, n, trims, written, -⟩ := fraction_trims zero small
    rw [written]
    exact paddedDigits_last trims.last

theorem fractionDigits_value (small : nanos < 10 ^ 9) :
    (Nat.ofDigitChars 10 (fractionDigits nanos) 0 : Rat) / 10 ^ (fractionDigits nanos).length =
      nanos / 10 ^ 9 := by
  by_cases zero : nanos = 0
  · simp [fractionDigits, zero]
  · obtain ⟨width, n, trims, written, -⟩ := fraction_trims zero small
    obtain ⟨less, scaled⟩ := trims.scaled
    have split : (10 : Rat) ^ 9 = 10 ^ width * 10 ^ (9 - width) := by
      rw [← pow_add]
      congr 1
      omega
    rw [written, paddedDigits_length (trims.wide small) (trims.fits small), paddedDigits_value,
      scaled, split]
    push_cast
    field_simp

theorem fraction_chars (small : nanos < 10 ^ 9) :
    (fraction nanos).toList =
      if (fractionDigits nanos).isEmpty then [] else '.' :: fractionDigits nanos := by
  by_cases zero : nanos = 0
  · simp [fraction, fractionDigits, zero]
  · obtain ⟨width, n, trims, written, printed⟩ := fraction_trims zero small
    have some : (paddedDigits width n).isEmpty = false := by
      rw [List.isEmpty_eq_false_iff, ← List.length_pos_iff,
        paddedDigits_length (trims.wide small) (trims.fits small)]
      exact trims.wide small
    rw [written, printed, some, String.toList_append, padded, String.toList_ofList,
      String.toList_ofList]
    rfl

end Fraction

section Duration
variable (nanos : Int)

theorem nanos_below : nanos.natAbs % NANOS_PER_SECOND.natAbs < 10 ^ 9 :=
  Nat.mod_lt _ (by decide)

theorem durationDecimal_canonical : (durationDecimal nanos).Canonical where
  whole := canonical_toDigits
  part := fractionDigits_digits
  last := fractionDigits_last (nanos_below nanos)

theorem displayDuration_chars :
    (displayDuration nanos).toList = (durationDecimal nanos).chars ++ ['s'] := by
  have sign : (if nanos < 0 then "-" else "").toList =
      if (durationDecimal nanos).negative then ['-'] else [] := by
    by_cases below : nanos < 0 <;> simp [durationDecimal, below]
  simp only [displayDuration, String.toList_append, sign, fraction_chars (nanos_below nanos),
    Decimal.chars, durationDecimal, digits, Nat.toString_eq_ofList_toDigits,
    String.toList_ofList]
  rfl

/-- It is worth as many nanoseconds as the duration has. -/
theorem durationDecimal_value : (durationDecimal nanos).value = (nanos : Rat) / 10 ^ 9 := by
  have whole : Nat.ofDigitChars 10 (durationDecimal nanos).whole 0 =
      nanos.natAbs / NANOS_PER_SECOND.natAbs := Nat.ofDigitChars_ten_toDigits
  have part := fractionDigits_value (nanos_below nanos)
  have split : nanos.natAbs = 10 ^ 9 * (nanos.natAbs / NANOS_PER_SECOND.natAbs) +
      nanos.natAbs % NANOS_PER_SECOND.natAbs := (Nat.div_add_mod _ _).symm
  have magnitude : (nanos.natAbs : Rat) = 10 ^ 9 * (nanos.natAbs / NANOS_PER_SECOND.natAbs : Nat) +
      (nanos.natAbs % NANOS_PER_SECOND.natAbs : Nat) := by
    exact_mod_cast split
  have signed : (nanos : Rat) = (if nanos < 0 then -1 else 1) * (nanos.natAbs : Rat) := by
    by_cases below : nanos < 0
    · have value : nanos = -(nanos.natAbs : Int) := by omega
      have cast := congrArg (Int.cast : Int → Rat) value
      rw [if_pos below, neg_one_mul, cast, Int.cast_neg]
      rfl
    · have value : nanos = (nanos.natAbs : Int) := by omega
      have cast := congrArg (Int.cast : Int → Rat) value
      rw [if_neg below, one_mul, cast]
      rfl
  rw [Decimal.value, whole]
  have after : (durationDecimal nanos).part =
      fractionDigits (nanos.natAbs % NANOS_PER_SECOND.natAbs) := rfl
  rw [after, part, signed, magnitude]
  by_cases below : nanos < 0
  · simp only [durationDecimal, below, decide_true, if_true]
    field_simp
  · simp only [durationDecimal, below, decide_false, Bool.false_eq_true, if_false]
    field_simp

end Duration

/-- Reads an exact number of seconds. -/
def readSeconds (text : String) : Option Rat :=
  match Decimal.read text.toList with
  | some (number, ['s']) => some number.value
  | _ => none

theorem readSeconds_display (nanos : Int) :
    readSeconds (displayDuration nanos) = some ((nanos : Rat) / 10 ^ 9) := by
  have canonical := durationDecimal_canonical nanos
  have unit : NoDigit ['s'] := by
    intro c first
    cases first
    decide
  rw [readSeconds, displayDuration_chars, Decimal.read_chars canonical.whole.nonempty
    canonical.whole.digits canonical.part unit (by decide)]
  exact congrArg some (durationDecimal_value nanos)

/-- A duration prints as a sign exactly if it is negative, its whole seconds
without leading zeros, and at most nine digits after a point of which the last
is not 0. The loop that drops the zeros ends, and the text is read back as the
same number of seconds, so that no other duration has it. -/
theorem displayDuration_exact :
    Function.Injective displayDuration ∧ ∀ nanos : Int,
      (∃ number : Decimal, (displayDuration nanos).toList = number.chars ++ ['s'] ∧
        number.Canonical ∧ number.part.length ≤ 9 ∧ (number.negative = true ↔ nanos < 0)) ∧
      readSeconds (displayDuration nanos) = some ((nanos : Rat) / 10 ^ 9) ∧
      (nanos.natAbs % NANOS_PER_SECOND.natAbs = 0 ∨ ∃ width n,
        Trims 9 (nanos.natAbs % NANOS_PER_SECOND.natAbs) width n ∧
        fraction (nanos.natAbs % NANOS_PER_SECOND.natAbs) = "." ++ padded width n) := by
  refine ⟨fun first second same => ?_, fun nanos => ⟨?_, readSeconds_display nanos, ?_⟩⟩
  · have read := readSeconds_display first
    rw [same, readSeconds_display second, Option.some.injEq] at read
    field_simp at read
    exact_mod_cast read.symm
  · exact ⟨durationDecimal nanos, displayDuration_chars nanos, durationDecimal_canonical nanos,
      fractionDigits_length (nanos_below nanos), decide_eq_true_iff⟩
  · by_cases zero : nanos.natAbs % NANOS_PER_SECOND.natAbs = 0
    · exact .inl zero
    · obtain ⟨width, n, trims, -, printed⟩ := fraction_trims zero (nanos_below nanos)
      exact .inr ⟨width, n, trims, printed⟩

/-- The least value of the type is read back too. -/
example : readSeconds (displayDuration (-2 ^ 127)) = some (-2 ^ 127 / 10 ^ 9) := by
  decide +kernel

end Protovalidate
