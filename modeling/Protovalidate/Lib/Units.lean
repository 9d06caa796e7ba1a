import Mathlib

/-!
# Numbers in two units

A number is written as a count of a larger unit and one of a smaller unit, of which
`base` make a larger one. Where the smaller counts of two numbers are never a whole
larger unit apart against the order of the larger ones, the numbers are ordered as
their counts are in a dictionary. There are two such forms: the smaller count counts
up from the larger one, or away from zero.
-/

namespace Units

variable {base : ℤ} {S : Set (ℤ ×ₗ ℤ)}

/-- A number in the smaller unit. -/
def total (base : ℤ) (counts : ℤ ×ₗ ℤ) : ℤ := (ofLex counts).1 * base + (ofLex counts).2

/-- Numbers with less of the larger unit are never ahead by a whole one in the smaller. -/
def Separated (base : ℤ) (S : Set (ℤ ×ₗ ℤ)) : Prop :=
  ∀ p ∈ S, ∀ q ∈ S, (ofLex p).1 < (ofLex q).1 → (ofLex p).2 - (ofLex q).2 < base

theorem Separated.strictMonoOn (separated : Separated base S) (positive : 0 < base) :
    StrictMonoOn (total base) S := by
  intro p inside q inside' before
  rcases Prod.Lex.lt_iff.mp before with larger | ⟨same, smaller⟩
  · have apart := separated p inside q inside' larger
    have whole : ((ofLex p).1 + 1) * base ≤ (ofLex q).1 * base :=
      Int.mul_le_mul_of_nonneg_right larger (Int.le_of_lt positive)
    rw [Int.add_mul, Int.one_mul] at whole
    unfold total
    omega
  · unfold total
    rw [same]
    omega

/-- The smaller count counts up from the larger one. -/
def floored (base : ℤ) : Set (ℤ ×ₗ ℤ) := {p | 0 ≤ (ofLex p).2 ∧ (ofLex p).2 < base}

/-- Both counts count away from zero, in one direction. -/
def truncated (base : ℤ) : Set (ℤ ×ₗ ℤ) :=
  {p | |(ofLex p).2| < base ∧ (0 < (ofLex p).1 → 0 ≤ (ofLex p).2) ∧
    ((ofLex p).1 < 0 → (ofLex p).2 ≤ 0)}

theorem floored_separated : Separated base (floored base) := by
  rintro p ⟨-, below⟩ q ⟨above, -⟩ -
  omega

theorem truncated_separated : Separated base (truncated base) := by
  rintro p ⟨small, -, down⟩ q ⟨small', up, -⟩ before
  have below := (abs_lt.mp small).2
  have above := (abs_lt.mp small').1
  by_cases negative : (ofLex p).1 < 0
  · have := down negative
    omega
  · have := up (by omega)
    omega

/-- A number in both units, the smaller one counting up. -/
def floor (base n : ℤ) : ℤ ×ₗ ℤ := toLex (n / base, n % base)

theorem floor_floored (positive : 0 < base) (n : ℤ) : floor base n ∈ floored base :=
  ⟨Int.emod_nonneg n positive.ne', Int.emod_lt_of_pos n positive⟩

theorem total_floor (n : ℤ) : total base (floor base n) = n := Int.ediv_mul_add_emod n base

end Units
