import Mathlib.Algebra.Order.Ring.Int

/-!
# Checked arithmetic on signed integers of one width

An operation on integers in two's complement has a result only where the exact one
fits the width. What a computation gives is then an integer, with no wrapping in it.
-/

namespace Signed

variable {w : Nat} {x y : BitVec w} {m n : Int}

def add (x y : BitVec w) : Option (BitVec w) :=
  if x.saddOverflow y then none else some (x + y)

def sub (x y : BitVec w) : Option (BitVec w) :=
  if x.ssubOverflow y then none else some (x - y)

def mul (x y : BitVec w) : Option (BitVec w) :=
  if x.smulOverflow y then none else some (x * y)

def neg (x : BitVec w) : Option (BitVec w) :=
  if x.negOverflow then none else some (-x)

/-- The signed integer of an unsigned one. -/
def ofUnsigned (x : BitVec w) : Option (BitVec w) :=
  if 2 * x.toNat < 2 ^ w then some x else none

/-- The integers of a width. -/
def Fits (w : Nat) (n : Int) : Prop := -2 ^ (w - 1) ≤ n ∧ n < 2 ^ (w - 1)

/-- No operation overflows if its exact result fits. -/
theorem Fits.inside (fits : Fits w n) :
    (decide (n ≥ 2 ^ (w - 1)) || decide (n < -2 ^ (w - 1))) = false := by
  simp only [Bool.or_eq_false_iff, decide_eq_false_iff_not]
  exact ⟨Int.not_le.mpr fits.2, Int.not_lt.mpr fits.1⟩

/-- A computation ends with an integer. -/
def Gives (result : Option (BitVec w)) (n : Int) : Prop :=
  ∃ z, result = some z ∧ z.toInt = n

theorem Gives.bind {result : Option (BitVec w)} {f : BitVec w → Option (BitVec w)}
    (gives : Gives result m) (next : ∀ z : BitVec w, z.toInt = m → Gives (f z) n) :
    Gives (result >>= f) n := by
  obtain ⟨z, rfl, same⟩ := gives
  exact next z same

theorem gives_unless {overflow : Bool} (inside : overflow = false) (same : x.toInt = n) :
    Gives (if overflow then none else some x) n := by
  rw [inside]
  exact ⟨x, rfl, same⟩

theorem add_gives (fits : Fits w (x.toInt + y.toInt)) : Gives (add x y) (x.toInt + y.toInt) := by
  have inside : x.saddOverflow y = false := fits.inside
  exact gives_unless inside (BitVec.toInt_add_of_not_saddOverflow (by simp [inside]))

theorem sub_gives (fits : Fits w (x.toInt - y.toInt)) : Gives (sub x y) (x.toInt - y.toInt) := by
  have inside : x.ssubOverflow y = false := fits.inside
  exact gives_unless inside (BitVec.toInt_sub_of_not_ssubOverflow (by simp [inside]))

theorem mul_gives (fits : Fits w (x.toInt * y.toInt)) : Gives (mul x y) (x.toInt * y.toInt) := by
  have inside : x.smulOverflow y = false := fits.inside
  exact gives_unless inside (BitVec.toInt_mul_of_not_smulOverflow (by simp [inside]))

example : add (BitVec.intMax 8) 1#8 = none := by decide

/-- Only the least integer has no negation. -/
theorem neg_gives (above : -2 ^ (w - 1) < x.toInt) : Gives (neg x) (-x.toInt) := by
  have inside : x.negOverflow = false := by
    rw [BitVec.negOverflow, beq_eq_false_iff_ne]
    omega
  exact gives_unless inside (BitVec.toInt_neg_of_not_negOverflow (by simp [inside]))

theorem ofUnsigned_gives (small : 2 * x.toNat < 2 ^ w) : Gives (ofUnsigned x) x.toNat := by
  refine ⟨x, if_pos small, ?_⟩
  rw [BitVec.toInt_eq_toNat_cond, if_pos small]

end Signed
