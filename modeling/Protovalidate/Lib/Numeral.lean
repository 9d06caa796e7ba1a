import Mathlib.Data.List.Induction

/-!
# Decimal numerals

A canonical numeral has digits only and no leading zero, and is the one way to
write its number. An integer is read from the left, every step checked against
the width of its type.
-/

namespace Numeral

/-- One digit more of a value that stays below a bound. -/
def push (bound value : Nat) (c : Char) : Option Nat :=
  if c.isDigit then
    let next := value * 10 + (c.toNat - '0'.toNat)
    if next < bound then some next else none
  else none

/-- Reads an unsigned integer below a bound: digits, after a plus sign or not. -/
def parse (bound : Nat) (s : List Char) : Option Nat :=
  let digits := if s.head? = some '+' then s.drop 1 else s
  if digits.isEmpty then none else digits.foldlM (push bound) 0

/-- Digits, and a zero first only if it stands alone. -/
structure Canonical (s : List Char) : Prop where
  nonempty : s ≠ []
  digits : ∀ c ∈ s, c.isDigit
  leading : 1 < s.length → s.head? ≠ some '0'

variable {s : List Char} {c : Char} {n bound : Nat}

theorem le_ofDigitChars : n ≤ Nat.ofDigitChars 10 s n := by
  rw [Nat.ofDigitChars_eq_ofDigitChars_zero]
  have positive : 1 ≤ 10 ^ s.length := Nat.one_le_pow _ _ (by omega)
  calc n = 1 * n := (Nat.one_mul n).symm
    _ ≤ 10 ^ s.length * n := Nat.mul_le_mul_right n positive
    _ ≤ _ := Nat.le_add_right _ _

/-- The checks of the steps are one check of the value. -/
theorem foldlM_push (digits : ∀ c ∈ s, c.isDigit) (small : n < bound) :
    s.foldlM (push bound) n =
      if Nat.ofDigitChars 10 s n < bound then some (Nat.ofDigitChars 10 s n) else none := by
  induction s generalizing n with
  | nil => simp [small]
  | cons c s ih =>
    have digit : c.isDigit := digits c List.mem_cons_self
    have rest : ∀ d ∈ s, d.isDigit := fun d member => digits d (List.mem_cons_of_mem c member)
    rw [List.foldlM_cons, Nat.ofDigitChars_cons, push, if_pos digit, Nat.mul_comm n 10]
    by_cases fits : 10 * n + (c.toNat - '0'.toNat) < bound
    · rw [if_pos fits]
      exact ih rest fits
    · have larger : 10 * n + (c.toNat - '0'.toNat) ≤
          Nat.ofDigitChars 10 s (10 * n + (c.toNat - '0'.toNat)) := le_ofDigitChars
      rw [if_neg fits, if_neg (by omega)]
      rfl

/-- Digits are read as their value, if it is below the bound. -/
theorem parse_digits (nonempty : s ≠ []) (digits : ∀ c ∈ s, c.isDigit) (positive : 0 < bound) :
    parse bound s =
      if Nat.ofDigitChars 10 s 0 < bound then some (Nat.ofDigitChars 10 s 0) else none := by
  have unsigned : s.head? ≠ some '+' := by
    intro sign
    have member := digits '+' (List.mem_of_head? sign)
    exact absurd member (by decide)
  rw [parse, if_neg unsigned, if_neg (by simp [nonempty])]
  exact foldlM_push digits positive

theorem parse_toDigits (positive : 0 < bound) :
    parse bound (Nat.toDigits 10 n) = if n < bound then some n else none := by
  have digits : ∀ c ∈ Nat.toDigits 10 n, c.isDigit := fun c member =>
    Nat.isDigit_of_mem_toDigits (by omega) (by omega) member
  rw [parse_digits Nat.toDigits_ne_nil digits positive, Nat.ofDigitChars_ten_toDigits]

theorem head_append {t : List Char} (nonempty : s ≠ []) : (s ++ t).head? = s.head? := by
  cases s with
  | nil => exact absurd rfl nonempty
  | cons c s => rfl

theorem head_toDigits (positive : 0 < n) : (Nat.toDigits 10 n).head? ≠ some '0' := by
  induction n using Nat.strongRecOn with
  | ind n ih =>
    by_cases small : n < 10
    · rw [Nat.toDigits_of_lt_base small, List.head?_cons]
      intro zero
      have value := Nat.toNat_digitChar_sub_48_of_lt_ten small
      rw [Option.some.inj zero] at value
      have none : '0'.toNat - 48 = 0 := rfl
      omega
    · rw [Nat.toDigits_of_base_le (by omega) (by omega),
        head_append Nat.toDigits_ne_nil]
      exact ih (n / 10) (by omega) (by omega)

theorem canonical_toDigits : Canonical (Nat.toDigits 10 n) where
  nonempty := Nat.toDigits_ne_nil
  digits c member := Nat.isDigit_of_mem_toDigits (by omega) (by omega) member
  leading long := by
    by_cases zero : n = 0
    · subst zero
      rw [Nat.toDigits_zero] at long
      exact absurd long (by decide)
    · exact head_toDigits (by omega)

theorem digit_bounds (digit : c.isDigit) : '0'.toNat ≤ c.toNat ∧ c.toNat < '0'.toNat + 10 := by
  simp only [Char.isDigit, ge_iff_le, UInt32.le_iff_toNat_le, Bool.and_eq_true,
    decide_eq_true_eq] at digit
  exact ⟨digit.1, Nat.lt_succ_of_le digit.2⟩

theorem digitChar_digit (digit : c.isDigit) : (c.toNat - '0'.toNat).digitChar = c := by
  have bounds := digit_bounds digit
  have zero : '0'.toNat = 48 := rfl
  apply Char.toNat_inj.mp
  rw [Nat.toNat_digitChar_of_lt_ten (by omega)]
  omega

/-- A canonical numeral is how its value is written. -/
theorem Canonical.toDigits (canonical : Canonical s) :
    Nat.toDigits 10 (Nat.ofDigitChars 10 s 0) = s := by
  induction s using List.reverseRecOn with
  | nil => exact absurd rfl canonical.nonempty
  | append_singleton s c ih =>
    have digit : c.isDigit := canonical.digits c (by simp)
    have written := digitChar_digit digit
    have bounds := digit_bounds digit
    have small : c.toNat - '0'.toNat < 10 := by omega
    rw [Nat.ofDigitChars_append, Nat.ofDigitChars_cons, Nat.ofDigitChars_nil]
    by_cases first : s = []
    · subst first
      rw [Nat.ofDigitChars_nil, Nat.mul_zero, Nat.zero_add, Nat.toDigits_of_lt_base small, written,
        List.nil_append]
    · have prior : Canonical s := {
        nonempty := first
        digits := fun d member => canonical.digits d (List.mem_append_left _ member)
        leading := fun long => by
          rw [← head_append (t := [c]) first]
          apply canonical.leading
          rw [List.length_append]
          omega }
      have value := ih prior
      have positive : 0 < Nat.ofDigitChars 10 s 0 := by
        by_contra zero
        have none : Nat.ofDigitChars 10 s 0 = 0 := by omega
        rw [none, Nat.toDigits_zero] at value
        have leads := canonical.leading (by rw [← value]; simp)
        rw [← value] at leads
        exact leads rfl
      rw [← Nat.toDigits_append_toDigits (by omega) positive small, value,
        Nat.toDigits_of_lt_base small, written]

theorem canonical_iff : Canonical s ↔ ∃ n, s = Nat.toDigits 10 n := by
  constructor
  · intro canonical
    exact ⟨_, canonical.toDigits.symm⟩
  · rintro ⟨n, rfl⟩
    exact canonical_toDigits

end Numeral
